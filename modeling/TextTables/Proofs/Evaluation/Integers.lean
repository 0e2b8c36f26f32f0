import TextTables.Proofs.Reference
/-!
# Integer arithmetic

An expression of integers denotes a number, however large (`Expression.Denotes`). It evaluates to that number if
the numbers of all its parts fit into 64 bits, and overflows otherwise (`Expression.evaluate_exact`).
-/

namespace TextTables

/-! ## Integers of 64 bits -/

/-- Whether a number fits into 64 bits. -/
def InInt64 (z : ℤ) : Prop := -0x8000000000000000 ≤ z ∧ z < 0x8000000000000000

instance (z : ℤ) : Decidable (InInt64 z) := inferInstanceAs (Decidable (_ ∧ _))

theorem inInt64_toInt (n : Int64) : InInt64 n.toInt := ⟨n.le_toInt, n.toInt_lt⟩

theorem Decimal.int64?_of_inInt64 {z : ℤ} (h : InInt64 z) : ∃ n, int64? z = some n ∧ n.toInt = z := by
  refine ⟨Int64.ofInt z, if_pos ?_, Int64.toInt_ofInt_of_le h.1 h.2⟩
  unfold InInt64 at h
  omega

theorem Decimal.int64?_eq_none {z : ℤ} : int64? z = none ↔ ¬InInt64 z := by
  unfold int64? InInt64
  constructor
  · intro h
    split at h
    · cases h
    · omega
  · intro h
    rw [if_neg (by omega)]

/-! ## Exact values -/

/-- The faults of an operation on integers whose exact result does not fit into 64 bits. -/
inductive TypeFault.Overflow : TypeFault → Prop
  | sum {a b : Int64} : ¬InInt64 (a.toInt + b.toInt) → Overflow (.overflow a "+" b)
  | difference {a b : Int64} : ¬InInt64 (a.toInt - b.toInt) → Overflow (.overflow a "-" b)
  | product {a b : Int64} : ¬InInt64 (a.toInt * b.toInt) → Overflow (.overflow a "*" b)
  | opposite {a : Int64} : ¬InInt64 (-a.toInt) → Overflow (.negationOverflow a)

theorem Datum.toValue_value (v : Value) : (Datum.value v).toValue = pure v := rfl

namespace Expression

variable {binding : Binding} {e : Expression} {z : ℤ}

/-- The number that an expression of integers denotes in a binding. -/
inductive Denotes (binding : Binding) : Expression → ℤ → Prop
  | constant (n : Int64) : Denotes binding (.constant (.integer n)) n.toInt
  | field {ref : FieldRef} {n : Int64} : binding.lookup ref = .ok (.integer n) →
      Denotes binding (.field ref) n.toInt
  | negate {e : Expression} {x : ℤ} : Denotes binding e x → Denotes binding (.negate e) (-x)
  | add {l r : Expression} {x y : ℤ} : Denotes binding l x → Denotes binding r y →
      Denotes binding (.binary (.compute .add) l r) (x + y)
  | subtract {l r : Expression} {x y : ℤ} : Denotes binding l x → Denotes binding r y →
      Denotes binding (.binary (.compute .subtract) l r) (x - y)
  | multiply {l r : Expression} {x y : ℤ} : Denotes binding l x → Denotes binding r y →
      Denotes binding (.binary (.compute .multiply) l r) (x * y)

/-- The expressions in an expression, itself included. -/
def parts : Expression → List Expression
  | .constant v => [.constant v]
  | .field ref => [.field ref]
  | .negate e => .negate e :: e.parts
  | .binary op l r => .binary op l r :: (l.parts ++ r.parts)

/-- All parts of an expression denote numbers of 64 bits. -/
def Fits (binding : Binding) (e : Expression) : Prop :=
  ∀ part ∈ e.parts, ∀ z, Denotes binding part z → InInt64 z

theorem mem_parts_self (e : Expression) : e ∈ e.parts := by
  cases e <;> exact List.mem_cons_self

theorem Denotes.unique {z' : ℤ} (h : Denotes binding e z) (h' : Denotes binding e z') : z' = z := by
  induction h generalizing z' with
  | constant n =>
    cases h'
    rfl
  | field hlookup =>
    cases h' with
    | field hlookup' =>
      rw [hlookup] at hlookup'
      cases hlookup'
      rfl
  | negate _ ih =>
    cases h' with
    | negate hx => rw [ih hx]
  | add _ _ ihl ihr =>
    cases h' with
    | add hl hr => rw [ihl hl, ihr hr]
  | subtract _ _ ihl ihr =>
    cases h' with
    | subtract hl hr => rw [ihl hl, ihr hr]
  | multiply _ _ ihl ihr =>
    cases h' with
    | multiply hl hr => rw [ihl hl, ihr hr]

theorem fits_leaf {n : Int64} (h : Denotes binding e n.toInt) (hparts : e.parts = [e]) : Fits binding e := by
  intro part hpart w hw
  rw [hparts, List.mem_singleton] at hpart
  rw [hpart] at hw
  rw [h.unique hw]
  exact inInt64_toInt n

theorem fits_negate (h : Denotes binding (.negate e) z) :
    Fits binding (.negate e) ↔ Fits binding e ∧ InInt64 z := by
  constructor
  · intro hfits
    exact ⟨fun part hpart => hfits part (List.mem_cons_of_mem _ hpart), hfits _ (mem_parts_self _) z h⟩
  · rintro ⟨he, hz⟩ part hpart w hw
    rcases List.mem_cons.1 hpart with rfl | hpart
    · rwa [h.unique hw]
    · exact he part hpart w hw

theorem fits_binary {op : Operator} {l r : Expression} (h : Denotes binding (.binary op l r) z) :
    Fits binding (.binary op l r) ↔ (Fits binding l ∧ Fits binding r) ∧ InInt64 z := by
  constructor
  · intro hfits
    refine ⟨⟨?_, ?_⟩, hfits _ (mem_parts_self _) z h⟩
    · exact fun part hpart => hfits part (List.mem_cons_of_mem _ (List.mem_append_left _ hpart))
    · exact fun part hpart => hfits part (List.mem_cons_of_mem _ (List.mem_append_right _ hpart))
  · rintro ⟨⟨hl, hr⟩, hz⟩ part hpart w hw
    rcases List.mem_cons.1 hpart with rfl | hpart
    · rwa [h.unique hw]
    · rcases List.mem_append.1 hpart with hpart | hpart
      · exact hl part hpart w hw
      · exact hr part hpart w hw

/-! ## Machine values -/

theorem evaluate_field (binding : Binding) (ref : FieldRef) :
    (Expression.field ref).evaluate binding = binding.lookup ref := by
  simp [evaluate, datum, Datum.toValue_value]

theorem evaluate_negate (binding : Binding) (e : Expression) :
    (Expression.negate e).evaluate binding = e.evaluate binding >>= Value.negate := by
  simp [evaluate, datum, Datum.toValue_value]

theorem evaluate_compute (binding : Binding) (op : Arithmetic) (l r : Expression) :
    (Expression.binary (.compute op) l r).evaluate binding =
      l.evaluate binding >>= fun a => r.evaluate binding >>= op.apply a := by
  simp [evaluate, datum, Datum.toValue_value]

/-- The outcome of an expression that denotes a number: that number, or an overflow because a part of the
expression does not fit. -/
inductive Exact (binding : Binding) (e : Expression) (z : ℤ) : Except Error Value → Prop
  | value {n : Int64} : Fits binding e → n.toInt = z → Exact binding e z (.ok (.integer n))
  | overflow {fault : TypeFault} : ¬Fits binding e → fault.Overflow →
      Exact binding e z (.error (.typeMismatch fault))

theorem Exact.negate {outcome : Except Error Value} (h : Denotes binding (.negate e) (-z))
    (he : Exact binding e z outcome) : Exact binding (.negate e) (-z) (outcome >>= Value.negate) := by
  cases he with
  | overflow hfits hfault => exact .overflow (fun hnegate => hfits ((fits_negate h).1 hnegate).1) hfault
  | @value n hfits hn =>
    subst hn
    change Exact _ _ _ (Value.integer n).negate
    unfold Value.negate
    by_cases hz : InInt64 (-n.toInt)
    · obtain ⟨m, hm, hmz⟩ := Decimal.int64?_of_inInt64 hz
      simp only [hm]
      exact .value ((fits_negate h).2 ⟨hfits, hz⟩) hmz
    · simp only [Decimal.int64?_eq_none.2 hz]
      exact .overflow (fun hnegate => hz ((fits_negate h).1 hnegate).2) (.opposite hz)

/-- An operation is exact if its operands are and it reports the operation of which the result does not fit. -/
theorem Exact.compute {op : Arithmetic} {f : ℤ → ℤ → ℤ} {l r : Expression} {x y : ℤ}
    {left right : Except Error Value} (hop : op.onIntegers? = some f)
    (hoverflow : ∀ a b : Int64, ¬InInt64 (f a.toInt b.toInt) → (TypeFault.overflow a op.symbol b).Overflow)
    (h : Denotes binding (.binary (.compute op) l r) (f x y)) (hl : Exact binding l x left)
    (hr : Exact binding r y right) :
    Exact binding (.binary (.compute op) l r) (f x y) (left >>= fun a => right >>= op.apply a) := by
  cases hl with
  | overflow hfits hfault => exact .overflow (fun hboth => hfits ((fits_binary h).1 hboth).1.1) hfault
  | @value a hfitsl ha =>
    cases hr with
    | overflow hfits hfault => exact .overflow (fun hboth => hfits ((fits_binary h).1 hboth).1.2) hfault
    | @value b hfitsr hb =>
      subst ha hb
      change Exact _ _ _ (op.apply (.integer a) (.integer b))
      simp only [Arithmetic.apply, hop]
      by_cases hz : InInt64 (f a.toInt b.toInt)
      · obtain ⟨m, hm, hmz⟩ := Decimal.int64?_of_inInt64 hz
        simp only [hm]
        exact .value ((fits_binary h).2 ⟨⟨hfitsl, hfitsr⟩, hz⟩) hmz
      · simp only [Decimal.int64?_eq_none.2 hz]
        exact .overflow (fun hboth => hz ((fits_binary h).1 hboth).2) (hoverflow a b hz)

theorem Denotes.exact (h : Denotes binding e z) : Exact binding e z (e.evaluate binding) := by
  induction h with
  | constant n => exact .value (fits_leaf (.constant n) rfl) rfl
  | field hlookup =>
    rw [evaluate_field, hlookup]
    exact .value (fits_leaf (.field hlookup) rfl) rfl
  | negate he ih =>
    rw [evaluate_negate]
    exact .negate (.negate he) ih
  | add hl hr ihl ihr =>
    rw [evaluate_compute]
    exact .compute rfl (fun _ _ => .sum) (.add hl hr) ihl ihr
  | subtract hl hr ihl ihr =>
    rw [evaluate_compute]
    exact .compute rfl (fun _ _ => .difference) (.subtract hl hr) ihl ihr
  | multiply hl hr ihl ihr =>
    rw [evaluate_compute]
    exact .compute rfl (fun _ _ => .product) (.multiply hl hr) ihl ihr

/-- Integer arithmetic is exact or refused. An expression of integers evaluates to the number it denotes if the
numbers that its parts denote fit into 64 bits, and to the error of an overflow if one of them does not. -/
theorem evaluate_exact (h : Denotes binding e z) :
    (Fits binding e → ∃ n : Int64, e.evaluate binding = .ok (.integer n) ∧ n.toInt = z) ∧
      (¬Fits binding e → ∃ fault, fault.Overflow ∧ e.evaluate binding = .error (.typeMismatch fault)) := by
  have hexact := h.exact
  generalize e.evaluate binding = outcome at hexact
  cases hexact with
  | value hfits hn => exact ⟨fun _ => ⟨_, rfl, hn⟩, fun hnot => absurd hfits hnot⟩
  | overflow hfits hfault => exact ⟨fun hyes => absurd hyes hfits, fun _ => ⟨_, hfault, rfl⟩⟩

/-- The least integer is refused as the product with minus one and given as a difference. -/
theorem evaluate_exact_at_least_integer :
    let binding : Binding := [(⟨[⟨"a", "int", .integer, none⟩]⟩, [.integer Int64.minValue])]
    let product : Expression := .binary (.compute .multiply) (.field ⟨none, "a"⟩) (.negate (.constant (.integer 1)))
    let difference : Expression :=
      .binary (.compute .subtract) (.negate (.constant (.integer Int64.maxValue))) (.constant (.integer 1))
    (∃ fault, TypeFault.Overflow fault ∧ product.evaluate binding = .error (.typeMismatch fault)) ∧
      difference.evaluate binding = .ok (.integer Int64.minValue) := by
  intro binding product difference
  have hproduct : Denotes binding product (Int64.minValue.toInt * -(1 : Int64).toInt) :=
    .multiply (.field rfl) (.negate (.constant 1))
  have hdifference : Denotes binding difference (-Int64.maxValue.toInt - (1 : Int64).toInt) :=
    .subtract (.negate (.constant Int64.maxValue)) (.constant 1)
  have hlarge : ¬InInt64 (Int64.minValue.toInt * -(1 : Int64).toInt) := by decide
  have hleast : -Int64.maxValue.toInt - (1 : Int64).toInt = Int64.minValue.toInt := by decide
  have hfits : Fits binding difference := by
    refine (fits_binary hdifference).2 ⟨⟨(fits_negate (.negate (.constant _))).2 ⟨?_, by decide⟩, ?_⟩, by decide⟩
    · exact fits_leaf (.constant _) rfl
    · exact fits_leaf (.constant _) rfl
  refine ⟨(evaluate_exact hproduct).2 fun h => hlarge (h _ (mem_parts_self _) _ hproduct), ?_⟩
  obtain ⟨n, hvalue, hn⟩ := (evaluate_exact hdifference).1 hfits
  rw [hvalue, Int64.toInt_inj.1 (hn.trans hleast)]

end Expression

end TextTables
