import Mathlib.Tactic.Common
import TextTables.Catalog
/-!
# Running actions

One equation for each way an action is put together, so that a `do` block opens step by step from
the state it starts in. `Action.after` is the state an action reaches, whether or not it succeeds.
-/

namespace TextTables

namespace Action

variable {σ α β : Type}

/-- The state that an action reaches, in success and in failure. -/
def after (action : Action σ α) (s : σ) : σ :=
  match action s with
  | .ok _ s => s
  | .error _ s => s

/-! ## One equation a constructor -/

theorem bind_apply (x : Action σ α) (f : α → Action σ β) (s : σ) :
    (x >>= f) s = match x s with
      | .ok a s => f a s
      | .error e s => .error e s := by
  change EStateM.bind x f s = _
  unfold EStateM.bind
  cases x s <;> rfl

theorem pure_apply (a : α) (s : σ) : (pure a : Action σ α) s = .ok a s := rfl

theorem throw_apply (e : Error) (s : σ) : (throw e : Action σ α) s = .error e s := rfl

theorem get_apply (s : σ) : (get : Action σ σ) s = .ok s s := rfl

theorem modify_apply (f : σ → σ) (s : σ) : (modify f : Action σ PUnit) s = .ok ⟨⟩ (f s) := rfl

theorem ask_apply (question : σ → Except Error α) (s : σ) :
    ask question s = match question s with
      | .ok a => .ok a s
      | .error e => .error e s := rfl

theorem of_apply (result : Except Error α) (s : σ) :
    of result s = match result with
      | .ok a => .ok a s
      | .error e => .error e s := rfl

theorem ite_apply (c : Prop) [Decidable c] (x y : Action σ α) (s : σ) :
    (if c then x else y) s = if c then x s else y s := by
  split <;> rfl

theorem ask_ok {question : σ → Except Error α} {s : σ} {a : α} (h : question s = .ok a) :
    ask question s = .ok a s := by
  simp only [ask_apply, h]

theorem ask_error {question : σ → Except Error α} {s : σ} {e : Error} (h : question s = .error e) :
    ask question s = .error e s := by
  simp only [ask_apply, h]

theorem of_ok {result : Except Error α} {a : α} (h : result = .ok a) (s : σ) :
    of result s = .ok a s := by
  rw [of_apply, h]

theorem of_error {result : Except Error α} {e : Error} (h : result = .error e) (s : σ) :
    of result s = .error e s := by
  rw [of_apply, h]

theorem bind_ok {x : Action σ α} {f : α → Action σ β} {s s' : σ} {a : α} (h : x s = .ok a s') :
    (x >>= f) s = f a s' := by
  rw [bind_apply, h]

theorem bind_error {x : Action σ α} {f : α → Action σ β} {s s' : σ} {e : Error}
    (h : x s = .error e s') : (x >>= f) s = .error e s' := by
  rw [bind_apply, h]

theorem bind_pure_eq_ok {x : Action σ α} {f : α → β} {s s' : σ} {b : β} :
    (x >>= fun a => pure (f a)) s = .ok b s' ↔ ∃ a, x s = .ok a s' ∧ f a = b := by
  rw [bind_apply]
  cases x s with
  | ok a s₁ => simp [pure_apply, and_comm]
  | error e s₁ => simp

theorem bind_pure_eq_error {x : Action σ α} {f : α → β} {s s' : σ} {e : Error} :
    (x >>= fun a => pure (f a)) s = .error e s' ↔ x s = .error e s' := by
  rw [bind_apply]
  cases x s with
  | ok a s₁ => simp [pure_apply]
  | error e' s₁ => simp

/-! ## The state reached -/

theorem after_ok {action : Action σ α} {s s' : σ} {a : α} (h : action s = .ok a s') :
    after action s = s' := by
  simp only [after, h]

theorem after_error {action : Action σ α} {s s' : σ} {e : Error} (h : action s = .error e s') :
    after action s = s' := by
  simp only [after, h]

theorem after_congr {action : Action σ α} {action' : Action σ α} {s : σ} (h : action s = action' s) :
    after action s = after action' s := by
  simp only [after, h]

theorem after_bind (x : Action σ α) (f : α → Action σ β) (s : σ) :
    after (x >>= f) s = match x s with
      | .ok a s => after (f a) s
      | .error _ s => s := by
  simp only [after, bind_apply]
  cases x s <;> rfl

theorem after_bind_ok {x : Action σ α} {f : α → Action σ β} {s s' : σ} {a : α}
    (h : x s = .ok a s') : after (x >>= f) s = after (f a) s' := by
  rw [after_bind, h]

theorem after_bind_error {x : Action σ α} {f : α → Action σ β} {s s' : σ} {e : Error}
    (h : x s = .error e s') : after (x >>= f) s = s' := by
  rw [after_bind, h]

/-- Giving the result another form does not change the state reached. -/
theorem after_bind_pure (x : Action σ α) (f : α → β) (s : σ) :
    after (x >>= fun a => pure (f a)) s = after x s := by
  rw [after_bind]
  simp only [after]
  cases x s <;> rfl

/-- A question changes nothing. -/
theorem after_ask (question : σ → Except Error α) (s : σ) : after (ask question) s = s := by
  simp only [after, ask_apply]
  cases question s <;> rfl

/-! ## Outcomes that are computed -/

/-- The result of an action, if it succeeds. -/
def result? (action : Action σ α) (s : σ) : Option α :=
  match action s with
  | .ok a _ => some a
  | .error _ _ => none

/-- The error of an action, if it fails. -/
def error? (action : Action σ α) (s : σ) : Option Error :=
  match action s with
  | .ok _ _ => none
  | .error e _ => some e

theorem result?_eq_some {x : Action σ α} {s : σ} {a : α} : x.result? s = some a ↔ ∃ s', x s = .ok a s' := by
  rw [result?]
  cases x s <;> simp

theorem error?_eq_some {x : Action σ α} {s : σ} {e : Error} : x.error? s = some e ↔ ∃ s', x s = .error e s' := by
  rw [error?]
  cases x s <;> simp

theorem exists_error_any {x : Action σ α} {s : σ} {p : Error → Bool} (h : (x.error? s).any p = true) :
    ∃ e s', x s = .error e s' ∧ p e = true := by
  obtain ⟨e, he, hp⟩ := Option.any_eq_true _ _ |>.1 h
  obtain ⟨s', hx⟩ := error?_eq_some.1 he
  exact ⟨e, s', hx, hp⟩

theorem exists_ok {x : Action σ α} {s : σ} (h : (x.result? s).isSome = true) : ∃ a s', x s = .ok a s' := by
  cases hx : x s with
  | ok a s' => exact ⟨a, s', rfl⟩
  | error e s' =>
    rw [result?, hx] at h
    cases h

theorem exists_error {x : Action σ α} {s : σ} (h : (x.result? s).isNone = true) : ∃ e s', x s = .error e s' := by
  cases hx : x s with
  | error e s' => exact ⟨e, s', rfl⟩
  | ok a s' =>
    rw [result?, hx] at h
    cases h

end Action

/-! ## Results -/

section Except
variable {ε α β : Type}

theorem Except.bind_eq_ok {x : Except ε α} {f : α → Except ε β} {b : β} :
    (x >>= f) = .ok b ↔ ∃ a, x = .ok a ∧ f a = .ok b := by
  cases x <;> simp [bind, Except.bind]

theorem Except.bind_unit_eq_ok {x : Except ε Unit} {y : Except ε β} {b : β} :
    (do x; y) = .ok b ↔ x = .ok () ∧ y = .ok b := by
  cases x <;> simp [bind, Except.bind]

/-- A result is not a value and an error at once. -/
theorem Except.ne_error {x : Except ε α} {a : α} (h : x = .ok a) (e : ε) : x ≠ .error e := by
  rw [h]
  exact fun heq => by cases heq

theorem Except.mapM_eq_ok {f : α → Except ε β} {as : List α} {bs : List β} :
    as.mapM f = .ok bs ↔ as.map f = bs.map .ok := by
  induction as generalizing bs with
  | nil => cases bs <;> simp [pure, Except.pure]
  | cons a rest ih =>
    rw [List.mapM_cons, Except.bind_eq_ok, List.map_cons]
    constructor
    · rintro ⟨b, hb, h⟩
      obtain ⟨others, hothers, h⟩ := Except.bind_eq_ok.1 h
      obtain rfl := Except.ok.inj h
      rw [hb, ih.1 hothers, List.map_cons]
    · intro h
      obtain ⟨b, others, rfl, hb, hothers⟩ := List.map_eq_cons_iff.1 h.symm
      exact ⟨b, hb.symm, Except.bind_eq_ok.2 ⟨others, ih.2 hothers.symm, rfl⟩⟩

/-- A traversal fails as one of its steps does. -/
theorem Except.exists_of_mapM_error {f : α → Except ε β} {as : List α} {e : ε} (h : as.mapM f = .error e) :
    ∃ a ∈ as, f a = .error e := by
  induction as with
  | nil => cases h
  | cons a rest ih =>
    rw [List.mapM_cons] at h
    cases ha : f a with
    | error e' =>
      rw [ha] at h
      obtain rfl := Except.error.inj h
      exact ⟨a, List.mem_cons_self, ha⟩
    | ok b =>
      cases hrest : rest.mapM f with
      | ok bs =>
        rw [ha, hrest] at h
        cases h
      | error e' =>
        rw [ha, hrest] at h
        obtain rfl := Except.error.inj h
        obtain ⟨other, hother, he⟩ := ih hrest
        exact ⟨other, List.mem_cons_of_mem a hother, he⟩

end Except

end TextTables
