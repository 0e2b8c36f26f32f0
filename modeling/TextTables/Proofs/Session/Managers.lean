import Mathlib.Data.Set.Function
import TextTables.Proofs.Session.Effect
import TextTables.Proofs.Transaction.Held
/-!
# Transaction managers that share a store

Any number of transaction managers start, extend and end transactions over one store in memory, in
any order. The lock lines in the files are in step with the tables that the active transactions hold
(`Managers.Locking`), so no two hold the same table: `Managers.locks_exact`.
-/

namespace TextTables

/-- What a transaction manager is asked to do. -/
inductive Request where
  | begin (ticket : Ticket)
  | acquire (id : TableId)
  | release (id : TableId)
  | stage (table : Table)
  | commit
  | abort

/-- A request as an action of the manager. -/
def Request.action (files : Catalog) : Request → Action (Connection Memory) Unit
  | .begin ticket => Connection.begin ticket
  | .acquire id => do
    let _ ← Connection.acquire files id
  | .release id => Connection.release files id
  | .stage table => Connection.stage table
  | .commit => do
    let _ ← Connection.commit files
  | .abort => Connection.abort files

/-- The active transactions of some managers and the store that they share. -/
structure Managers (ι : Type) where
  transactions : ι → Option Transaction
  store : Memory

namespace Managers

variable {ι : Type}

/-- Managers without active transactions. -/
def start (m : Memory) : Managers ι := ⟨fun _ => none, m⟩

/-- What a manager works on. -/
def connection (s : Managers ι) (i : ι) : Connection Memory := ⟨⟨s.transactions i, none⟩, s.store⟩

/-- The tickets with which a request starts a transaction. -/
def begun (s : Managers ι) (i : ι) : Request → List (ι × Ticket)
  | .begin ticket => if (s.transactions i).isNone then [(i, ticket)] else []
  | _ => []

/-- A request that keeps to a set of tables: it stages only held tables, with schemas that files
have, and releases no table that is staged. -/
def Allowed (ids : Set TableId) (s : Managers ι) (i : ι) : Request → Prop
  | .acquire id => id ∈ ids
  | .release id => id ∈ ids ∧ ∀ t, s.transactions i = some t → t.staged? id = none
  | .stage table => (∀ t, s.transactions i = some t → table.id ∈ t.locked) ∧
      ∃ line schema, Schema.decode line = .ok schema ∧ table.schema.encode = schema.encode
  | .begin _ | .commit | .abort => True

variable [DecidableEq ι]

/-- The managers after one of them and the store have changed. -/
def set (s : Managers ι) (i : ι) (transaction : Option Transaction) (store : Memory) : Managers ι :=
  ⟨Function.update s.transactions i transaction, store⟩

variable (files : Catalog)

/-- The managers after a request to one of them, whether or not it succeeds. -/
def step (s : Managers ι) (i : ι) (request : Request) : Managers ι :=
  let c := Action.after (request.action files) (s.connection i)
  s.set i c.transaction c.store

/-- The managers after some requests, in order. -/
def run (s : Managers ι) (requests : List (ι × Request)) : Managers ι :=
  requests.foldl (fun s request => s.step files request.1 request.2) s

/-- A run of requests each of which is allowed. -/
def Orderly (ids : Set TableId) : Managers ι → List (ι × Request) → Prop
  | _, [] => True
  | s, (i, request) :: rest => s.Allowed ids i request ∧ Orderly ids (s.step files i request) rest

/-- The tickets of the transactions that a run starts, with their managers. -/
def tickets : Managers ι → List (ι × Request) → List (ι × Ticket)
  | _, [] => []
  | s, (i, request) :: rest => s.begun i request ++ tickets (s.step files i request) rest

variable {files} {ids : Set TableId} {s s' : Managers ι} {i j : ι} {t t' : Transaction} {m m' : Memory}

@[simp] theorem set_transactions_self {transaction : Option Transaction} :
    (s.set i transaction m).transactions i = transaction := Function.update_self ..

theorem set_transactions_of_ne {transaction : Option Transaction} (h : j ≠ i) :
    (s.set i transaction m).transactions j = s.transactions j := Function.update_of_ne h ..

theorem transactions_set_eq_some {transaction : Option Transaction}
    (h : (s.set i transaction m).transactions j = some t) :
    j = i ∧ transaction = some t ∨ j ≠ i ∧ s.transactions j = some t := by
  by_cases hj : j = i
  · subst hj
    rw [set_transactions_self] at h
    exact .inl ⟨rfl, h⟩
  · rw [set_transactions_of_ne hj] at h
    exact .inr ⟨hj, h⟩

theorem set_self : s.set i (s.transactions i) s.store = s := by
  rw [set, Function.update_eq_self]

/-! ## What a request does -/

/-- What a request to a manager may come to. -/
inductive Stepped (files : Catalog) (s : Managers ι) (i : ι) : Request → Managers ι → Prop
  | refused {request : Request} : Stepped files s i request s
  | begun {ticket : Ticket} : s.transactions i = none →
      Stepped files s i (.begin ticket) (s.set i (some (.start ticket)) s.store)
  | heldAlready {id : TableId} {t : Transaction} : s.transactions i = some t →
      files.heldBy? id s.store = some t.ticket →
      Stepped files s i (.acquire id) (s.set i (some (t.hold id)) s.store)
  | acquired {id : TableId} {t : Transaction} {ls : List String} : s.transactions i = some t →
      files.lines? id s.store = some ls → holder? ls = none → files.hasDirectory id s.store = true →
      Stepped files s i (.acquire id)
        (s.set i (some (t.hold id)) (s.store.put (files.place id) (putLock t.ticket ls)))
  | released {id : TableId} {t : Transaction} {ls : List String} : s.transactions i = some t →
      files.lines? id s.store = some ls → holder? ls = some t.ticket →
      Stepped files s i (.release id)
        (s.set i (some (t.letGo id)) (s.store.put (files.place id) (dropLock ls)))
  | letGo {id : TableId} {t : Transaction} : s.transactions i = some t →
      files.heldBy? id s.store ≠ some t.ticket →
      Stepped files s i (.release id) (s.set i (some (t.letGo id)) s.store)
  | staged {table : Table} {t : Transaction} : s.transactions i = some t →
      Stepped files s i (.stage table) (s.set i (some (t.stage table)) s.store)
  | committed {t : Transaction} : s.transactions i = some t →
      Stepped files s i .commit (s.set i none (Action.after (t.commit files) s.store))
  | aborted {t : Transaction} : s.transactions i = some t →
      Stepped files s i .abort (s.set i none (Action.after (t.abort files) s.store))

theorem step_eq (request : Request) {c : Connection Memory}
    (h : Action.after (request.action files) (s.connection i) = c) :
    s.step files i request = s.set i c.transaction c.store := by
  rw [step, h]

theorem step_refused {request : Request}
    (h : Action.after (request.action files) (s.connection i) = s.connection i) :
    Stepped files s i request (s.step files i request) := by
  rw [step_eq request h]
  change Stepped files s i request (s.set i (s.transactions i) s.store)
  rw [set_self]
  exact .refused

/-- A manager without an active transaction only starts one. -/
theorem after_idle {c : Connection Memory} (ht : c.transaction = none) {request : Request}
    (hrequest : ∀ ticket, request ≠ .begin ticket) :
    Action.after (request.action files) c = c := by
  have hidle := Connection.activeTransaction_idle ht
  cases request with
  | begin ticket => exact absurd rfl (hrequest ticket)
  | acquire id =>
    rw [Request.action, Action.after_bind_pure, Connection.acquire, Action.after_bind_error hidle]
  | release id => rw [Request.action, Connection.release, Action.after_bind_error hidle]
  | stage table => rw [Request.action, Connection.stage, Action.after_bind_error hidle]
  | commit =>
    rw [Request.action, Action.after_bind_pure, Connection.commit, Action.after_bind_error hidle]
  | abort => rw [Request.action, Connection.abort, Action.after_bind_error hidle]

theorem step_idle (ht : s.transactions i = none) (request : Request) :
    Stepped files s i request (s.step files i request) := by
  by_cases hbegin : ∃ ticket, request = .begin ticket
  · obtain ⟨ticket, rfl⟩ := hbegin
    have hidle : (s.connection i).transaction = none := ht
    have hbegins : Connection.begin ticket (s.connection i) =
        .ok () { s.connection i with transaction := some (.start ticket) } := by
      simp [Connection.begin, Connection.isActive, hidle]
    rw [step_eq (.begin ticket) (Action.after_ok hbegins)]
    exact .begun ht
  · exact step_refused (after_idle ht fun ticket h => hbegin ⟨ticket, h⟩)

theorem step_acquire (ht : s.transactions i = some t) (id : TableId) :
    Stepped files s i (.acquire id) (s.step files i (.acquire id)) := by
  have hactive : (s.connection i).transaction = some t := ht
  have hafter : Action.after (Request.action files (.acquire id)) (s.connection i) =
      Action.after (Connection.acquire files id) (s.connection i) := Action.after_bind_pure ..
  have hstore : (s.connection i).store = s.store := rfl
  have hacquire := Connection.acquire_apply files id hactive
  rw [hstore] at hacquire
  cases hl : files.lines? id s.store with
  | none =>
    simp only [hl] at hacquire
    exact step_refused (hafter.trans (Action.after_error hacquire))
  | some ls =>
    simp only [hl] at hacquire
    cases hh : holder? ls with
    | some holder =>
      simp only [hh] at hacquire
      split at hacquire
      · next hticket =>
        rw [step_eq (.acquire id) (hafter.trans (Action.after_ok hacquire))]
        exact .heldAlready ht (Catalog.heldBy?_eq_some.2 ⟨ls, hl, hticket ▸ hh⟩)
      · exact step_refused (hafter.trans (Action.after_error hacquire))
    | none =>
      simp only [hh] at hacquire
      split at hacquire
      · next hd =>
        rw [step_eq (.acquire id) (hafter.trans (Action.after_ok hacquire))]
        exact .acquired ht hl hh hd
      · exact step_refused (hafter.trans (Action.after_error hacquire))

theorem step_release (ht : s.transactions i = some t) (id : TableId) :
    Stepped files s i (.release id) (s.step files i (.release id)) := by
  have hactive : (s.connection i).transaction = some t := ht
  have hstore : (s.connection i).store = s.store := rfl
  have hrelease := Connection.release_apply files id hactive
  rw [hstore] at hrelease
  cases hl : files.lines? id s.store with
  | none =>
    simp only [hl] at hrelease
    exact step_refused (Action.after_error hrelease)
  | some ls =>
    simp only [hl] at hrelease
    split at hrelease
    · next hh =>
      split at hrelease
      · rw [step_eq (.release id) (Action.after_ok hrelease)]
        exact .released ht hl hh
      · exact step_refused (Action.after_error hrelease)
    · next hh =>
      rw [step_eq (.release id) (Action.after_ok hrelease)]
      exact .letGo ht (by simpa [Catalog.heldBy?, hl] using hh)

/-- A request to a manager comes to one of the things it may come to. -/
theorem step_stepped (s : Managers ι) (i : ι) (request : Request) :
    Stepped files s i request (s.step files i request) := by
  cases ht : s.transactions i with
  | none => exact step_idle ht request
  | some t =>
    have hactive : (s.connection i).transaction = some t := ht
    cases request with
    | begin ticket =>
      have hbegins : Connection.begin ticket (s.connection i) =
          .error .transactionAlreadyActive (s.connection i) := by
        simp [Connection.begin, Connection.isActive, hactive]
      exact step_refused (Action.after_error hbegins)
    | acquire id => exact step_acquire ht id
    | release id => exact step_release ht id
    | stage table =>
      rw [step_eq (.stage table) (Action.after_ok (Connection.stage_apply hactive table))]
      exact .staged ht
    | commit =>
      have hafter : Action.after (Request.action files .commit) (s.connection i) =
          Action.after (Connection.commit files) (s.connection i) := Action.after_bind_pure ..
      rw [step_eq .commit (hafter.trans (Connection.after_commit files hactive))]
      exact .committed ht
    | abort =>
      rw [step_eq .abort (Connection.after_abort files hactive)]
      exact .aborted ht

/-! ## Lock lines and held tables -/

/-- The lock lines in the files are in step with what the active transactions hold, which are tables
of the set. The transactions were started with the tickets issued. -/
structure Locking (files : Catalog) (ids : Set TableId) (issued : List (ι × Ticket))
    (s : Managers ι) : Prop where
  headed : Headed files s.store
  inStep {i : ι} {t : Transaction} : s.transactions i = some t → t.InStep files s.store
  known {i : ι} {t : Transaction} : s.transactions i = some t → ∀ id ∈ t.locked, id ∈ ids
  active {id : TableId} {k : Ticket} : files.heldBy? id s.store = some k →
    ∃ i t, s.transactions i = some t ∧ t.ticket = k
  issued {i : ι} {t : Transaction} : s.transactions i = some t → (i, t.ticket) ∈ issued

omit [DecidableEq ι] in
/-- A ticket is issued to one manager only. -/
theorem eq_of_issued {issued : List (ι × Ticket)} {ticket : Ticket}
    (hnodup : (issued.map Prod.snd).Nodup) (hi : (i, ticket) ∈ issued) (hj : (j, ticket) ∈ issued) :
    i = j :=
  congrArg Prod.fst (List.inj_on_of_nodup_map hnodup hi hj rfl)

namespace Locking

variable {issued issued' : List (ι × Ticket)} {ticket : Ticket} {transaction : Option Transaction}
  {request : Request} {id : TableId}

omit [DecidableEq ι] in
theorem mono (h : Locking files ids issued s) (hsub : issued ⊆ issued') :
    Locking files ids issued' s :=
  ⟨h.headed, h.inStep, h.known, h.active, fun ht => hsub (h.issued ht)⟩

/-- One manager has changed its transaction, or ended it, and has left alone what the others hold. -/
theorem set (h : Locking files ids issued s) (hnodup : (issued.map Prod.snd).Nodup)
    (hissued : (i, ticket) ∈ issued) (hown : ∀ t, s.transactions i = some t → t.ticket = ticket)
    (hstore : Transaction.Undisturbed files ticket s.store m) (hheaded : Headed files m)
    (hnew : ∀ t, transaction = some t →
      t.ticket = ticket ∧ t.InStep files m ∧ ∀ id ∈ t.locked, id ∈ ids)
    (hleft : ∀ id, files.heldBy? id m = some ticket → transaction.isSome = true) :
    Locking files ids issued (s.set i transaction m) where
  headed := hheaded
  inStep {j t} ht := by
    rcases transactions_set_eq_some ht with ⟨rfl, hset⟩ | ⟨hj, ht⟩
    · exact (hnew t hset).2.1
    · refine (h.inStep ht).of_undisturbed hstore hheaded fun hticket => hj ?_
      exact eq_of_issued hnodup (hticket ▸ h.issued ht) hissued
  known {j t} ht := by
    rcases transactions_set_eq_some ht with ⟨rfl, hset⟩ | ⟨-, ht⟩
    · exact (hnew t hset).2.2
    · exact h.known ht
  active {id k} hheld := by
    by_cases hk : k = ticket
    · subst hk
      obtain ⟨t, ht⟩ := Option.isSome_iff_exists.1 (hleft id hheld)
      exact ⟨i, t, set_transactions_self.trans ht, (hnew t ht).1⟩
    · obtain ⟨j, t, ht, hticket⟩ := h.active ((hstore.others hk).1 hheld)
      have hj : j ≠ i := by
        rintro rfl
        exact hk (hticket.symm.trans (hown t ht))
      exact ⟨j, t, (set_transactions_of_ne hj).trans ht, hticket⟩
  issued {j t} ht := by
    rcases transactions_set_eq_some ht with ⟨rfl, hset⟩ | ⟨-, ht⟩
    · exact (hnew t hset).1 ▸ hissued
    · exact h.issued ht

/-- One manager has changed what its transaction holds, or what it has staged. -/
theorem change (h : Locking files ids issued s) (hnodup : (issued.map Prod.snd).Nodup)
    (ht : s.transactions i = some t) (hticket : t'.ticket = t.ticket)
    (hstore : Transaction.Undisturbed files t.ticket s.store m) (hinStep : t'.InStep files m)
    (hknown : ∀ id ∈ t'.locked, id ∈ ids) : Locking files ids issued (s.set i (some t') m) := by
  refine h.set hnodup (h.issued ht) (by simp [ht]) hstore hinStep.headed ?_ fun _ _ => rfl
  rintro _ ⟨⟩
  exact ⟨hticket, hinStep, hknown⟩

/-- One manager has ended its transaction. -/
theorem ended (h : Locking files ids issued s) (hnodup : (issued.map Prod.snd).Nodup)
    (ht : s.transactions i = some t) (hended : Transaction.Ended files t.ticket s.store m) :
    Locking files ids issued (s.set i none m) := by
  refine h.set hnodup (h.issued ht) (by simp [ht]) hended.undisturbed hended.headed nofun
    fun id hheld => ?_
  rw [hended.heldBy?] at hheld
  split at hheld
  · cases hheld
  · next hne => exact absurd hheld hne

theorem step (h : Locking files ids issued s) (hplaces : Set.InjOn files.place ids)
    (hnodup : ((issued ++ s.begun i request).map Prod.snd).Nodup)
    (hallowed : s.Allowed ids i request) :
    Locking files ids (issued ++ s.begun i request) (s.step files i request) := by
  have h := h.mono (List.subset_append_left issued (s.begun i request))
  have hstep : Stepped files s i request (s.step files i request) := step_stepped s i request
  generalize s.step files i request = s' at hstep ⊢
  cases hstep with
  | refused => exact h
  | @begun ticket hidle =>
    have hissued : (i, ticket) ∈ issued ++ s.begun i (.begin ticket) := by simp [Managers.begun, hidle]
    -- A ticket that has just been issued stands in no file.
    have hnew (id : TableId) : files.heldBy? id s.store ≠ some ticket := by
      intro hheld
      obtain ⟨j, t, ht, rfl⟩ := h.active hheld
      obtain rfl := eq_of_issued hnodup (h.issued ht) hissued
      rw [hidle] at ht
      cases ht
    refine h.set hnodup hissued (by simp [hidle]) (.refl _) h.headed ?_ fun _ _ => rfl
    rintro _ ⟨⟩
    exact ⟨rfl, .start h.headed hnew, nofun⟩
  | heldAlready ht hheld =>
    refine h.change hnodup ht rfl (.refl _) ((h.inStep ht).heldAlready hheld) fun other hother => ?_
    rcases Transaction.mem_locked_hold.1 hother with rfl | hother
    · exact hallowed
    · exact h.known ht other hother
  | @acquired id t ls ht hl hh hd =>
    have hfree : files.heldBy? id s.store = none := by rw [Catalog.heldBy?, hl]; exact hh
    have hstore : Transaction.Undisturbed files t.ticket s.store
        (s.store.put (files.place id) (putLock t.ticket ls)) :=
      .put (by simp [hfree]) (by simp [eq_comm])
    refine h.change hnodup ht rfl hstore ((h.inStep ht).acquired hl hh hd) fun other hother => ?_
    rcases Transaction.mem_locked_hold.1 hother with rfl | hother
    · exact hallowed
    · exact h.known ht other hother
  | @released id t ls ht hl hh =>
    obtain ⟨hid, hcopy⟩ := hallowed
    have hheld : files.heldBy? id s.store = some t.ticket := Catalog.heldBy?_eq_some.2 ⟨ls, hl, hh⟩
    have hstore : Transaction.Undisturbed files t.ticket s.store
        (s.store.put (files.place id) (dropLock ls)) :=
      .put (by simp [hheld, eq_comm]) (by simp [h.headed.holder?_dropLock hl hh])
    have hsame : ∀ other ∈ t.locked, files.place other = files.place id → other = id :=
      fun other hother hplace => hplaces (h.known ht other hother) hid hplace
    exact h.change hnodup ht rfl hstore ((h.inStep ht).released hl hh (hcopy t ht) hsame)
      fun other hother => h.known ht other (Transaction.mem_locked_letGo.1 hother).1
  | letGo ht hheld =>
    exact h.change hnodup ht rfl (.refl _) ((h.inStep ht).letGo hheld (hallowed.2 _ ht))
      fun other hother => h.known ht other (Transaction.mem_locked_letGo.1 hother).1
  | @staged table t ht =>
    obtain ⟨hlocked, line, schema, hdecode, hencode⟩ := hallowed
    have hschema : isLockLine table.schema.encode = false := by
      rw [hencode]
      exact (Schema.wellFormed_of_ofDescriptors hdecode).isLockLine_encode
    exact h.change hnodup ht rfl (.refl _) ((h.inStep ht).stage (hlocked t ht) hschema)
      fun other hother => h.known ht other hother
  | committed ht => exact h.ended hnodup ht (h.inStep ht).commit
  | aborted ht => exact h.ended hnodup ht (h.inStep ht).abort

theorem run {requests : List (ι × Request)} (h : Locking files ids issued s)
    (hplaces : Set.InjOn files.place ids)
    (hnodup : ((issued ++ tickets files s requests).map Prod.snd).Nodup)
    (horderly : Orderly files ids s requests) :
    Locking files ids (issued ++ tickets files s requests) (s.run files requests) := by
  induction requests generalizing s issued with
  | nil => exact (List.append_nil issued).symm ▸ h
  | cons event rest ih =>
    obtain ⟨i, request⟩ := event
    obtain ⟨hallowed, horderly⟩ := horderly
    rw [tickets, ← List.append_assoc] at hnodup ⊢
    have hfirst : ((issued ++ s.begun i request).map Prod.snd).Nodup := by
      rw [List.map_append] at hnodup
      exact hnodup.of_append_left
    exact ih (h.step hplaces hfirst hallowed) hnodup horderly

end Locking

omit [DecidableEq ι] in
/-- Managers over a store without lock lines. -/
theorem locking_start (hclean : ∀ id ls, files.lines? id m = some ls →
    ∀ line ∈ ls, isLockLine line = false) : Locking files ids [] (start m : Managers ι) where
  headed id ls hl line hline := hclean id ls hl line (List.mem_of_mem_tail hline)
  inStep := nofun
  known := nofun
  active {id k} hheld := by
    obtain ⟨ls, hl, hh⟩ := Catalog.heldBy?_eq_some.1 hheld
    rw [holder?_of_no_lockLine (hclean id ls hl)] at hh
    cases hh
  issued := nofun

/-- The lock lines of a store say exactly which tables the managers hold. -/
structure LocksExact (files : Catalog) (ids : Set TableId) (issued : List (ι × Ticket))
    (s : Managers ι) : Prop where
  /-- A lock line is the first line of its file, so a file has at most one. -/
  first (id : TableId) (ls : List String) : files.lines? id s.store = some ls →
    ∀ line ∈ ls.tail, isLockLine line = false
  /-- A file carries the lock line of a ticket if the active transaction with it holds the table, and
  only then. -/
  carries_iff (id : TableId) (k : Ticket) : id ∈ ids →
    ((∃ ls, files.lines? id s.store = some ls ∧ k.lockLine ∈ ls) ↔
      ∃ i t, s.transactions i = some t ∧ t.ticket = k ∧ id ∈ t.locked)
  /-- No table is held twice. -/
  exclusive {i j : ι} {t t' : Transaction} {id : TableId} : s.transactions i = some t →
    s.transactions j = some t' → id ∈ t.locked → id ∈ t'.locked → i = j
  /-- A held table is refused to any other active manager, and nothing changes. -/
  refused {i j : ι} {t t' : Transaction} {id : TableId} : s.transactions i = some t →
    s.transactions j = some t' → i ≠ j → id ∈ t.locked →
    Connection.acquire files id (s.connection j) = .error (.tableLocked id.name) (s.connection j)
  /-- A ticket that its manager does not use any more stands in no file. -/
  gone {i : ι} {k : Ticket} : (i, k) ∈ issued → (∀ t, s.transactions i = some t → t.ticket ≠ k) →
    ∀ id ls, files.lines? id s.store = some ls → k.lockLine ∉ ls

omit [DecidableEq ι] in
theorem Locking.locksExact {issued : List (ι × Ticket)} (h : Locking files ids issued s)
    (hplaces : Set.InjOn files.place ids) (hnodup : (issued.map Prod.snd).Nodup) :
    LocksExact files ids issued s := by
  have hunique {i j : ι} {t t' : Transaction} (ht : s.transactions i = some t)
      (ht' : s.transactions j = some t') (hticket : t.ticket = t'.ticket) : i = j :=
    eq_of_issued hnodup (hticket ▸ h.issued ht) (h.issued ht')
  refine ⟨h.headed, fun id k hid => ?_, fun {i j t t' id} ht ht' hid hid' => ?_,
    fun {i j t t' id} ht ht' hne hid => ?_, fun {i k} hissued hended id ls hl hmem => ?_⟩
  · rw [← h.headed.heldBy?_iff]
    constructor
    · intro hheld
      obtain ⟨i, t, ht, rfl⟩ := h.active hheld
      obtain ⟨id', hid', hplace⟩ := (h.inStep ht).carried id hheld
      exact ⟨i, t, ht, rfl, hplaces (h.known ht id' hid') hid hplace ▸ hid'⟩
    · rintro ⟨i, t, ht, rfl, hlocked⟩
      exact ((h.inStep ht).locked id hlocked).1
  · have hheld := ((h.inStep ht).locked id hid).1
    rw [((h.inStep ht').locked id hid').1] at hheld
    exact hunique ht ht' (Option.some.inj hheld).symm
  · obtain ⟨ls, hl, hh⟩ := Catalog.heldBy?_eq_some.1 ((h.inStep ht).locked id hid).1
    have hl : files.lines? id (s.connection j).store = some ls := hl
    have hforeign : t.ticket ≠ t'.ticket := fun hticket => hne (hunique ht ht' hticket)
    rw [Connection.acquire_apply files id ht']
    simp only [hl, hh, if_neg hforeign]
  · obtain ⟨j, t, ht, rfl⟩ := h.active (h.headed.heldBy?_iff.2 ⟨ls, hl, hmem⟩)
    obtain rfl := eq_of_issued hnodup (h.issued ht) hissued
    exact hended t ht rfl

/-- In every state that managers reach from a store without lock lines, with distinct tickets and on
tables with distinct files, the lock lines say exactly which tables they hold. -/
theorem locks_exact {requests : List (ι × Request)} (hplaces : Set.InjOn files.place ids)
    (hclean : ∀ id ls, files.lines? id m = some ls → ∀ line ∈ ls, isLockLine line = false)
    (horderly : Orderly files ids (start m) requests)
    (htickets : ((tickets files (start m) requests).map Prod.snd).Nodup) :
    LocksExact files ids (tickets files (start m) requests) (run files (start m) requests) :=
  Locking.locksExact ((locking_start hclean).run hplaces htickets horderly) hplaces htickets

/-- Two managers contend for the tables t and u: one is refused t until the other has committed, and a
commit fails because a staged text cannot be written. -/
def contested : List (String × Request) :=
  let t : TableId := ⟨"db", "t"⟩
  let u : TableId := ⟨"db", "u"⟩
  let schema : Schema := ⟨[⟨"n", "text", .text, none⟩]⟩
  [("a", .begin ⟨"1"⟩), ("b", .begin ⟨"2"⟩), ("a", .acquire t), ("b", .acquire t), ("b", .acquire u),
   ("a", .stage ⟨t, schema, [[.text "x"]]⟩), ("b", .release u), ("a", .commit), ("b", .acquire t),
   ("b", .stage ⟨t, schema, [[.text "x|y"]]⟩), ("b", .commit), ("b", .begin ⟨"3"⟩),
   ("a", .begin ⟨"4"⟩), ("b", .acquire t), ("a", .acquire t), ("a", .acquire u), ("b", .abort)]

set_option maxRecDepth 100000 in
theorem locks_exact_contested :
    let files : Catalog := ⟨⟨"Databases"⟩, "tbl"⟩
    let ids : Set TableId := {⟨"db", "t"⟩, ⟨"db", "u"⟩}
    let m : Memory := ⟨[(["Databases", "db", "t.tbl"], ["n text", "v"]),
      (["Databases", "db", "u.tbl"], ["n text"])], [["Databases"], ["Databases", "db"]]⟩
    Set.InjOn files.place ids ∧
    (∀ id ls, files.lines? id m = some ls → ∀ line ∈ ls, isLockLine line = false) ∧
    Orderly files ids (start m) contested ∧
    ((tickets files (start m) contested).map Prod.snd).Nodup ∧
    LocksExact files ids (tickets files (start m) contested) (run files (start m) contested) := by
  intro files ids m
  have hplaces : Set.InjOn files.place ids := by
    rintro a (rfl | rfl) b (rfl | rfl) hplace
    · rfl
    · exact absurd hplace (by decide)
    · exact absurd hplace (by decide)
    · rfl
  have hclean : ∀ id ls, files.lines? id m = some ls → ∀ line ∈ ls, isLockLine line = false := by
    have hfiles : ∀ file ∈ m.files, ∀ line ∈ file.2, isLockLine line = false := by decide
    exact fun id ls hl => hfiles _ (Memory.mem_files_of_lines? hl)
  have htickets : ((tickets files (start m) contested).map Prod.snd).Nodup := by decide +kernel
  have hof {active : Option Transaction} {p : Transaction → Prop} [DecidablePred p]
      (h : active.all (fun t => decide (p t)) = true) : ∀ t, active = some t → p t := by
    rintro t rfl
    exact of_decide_eq_true h
  have hschema : Schema.decode "n text" = .ok ⟨[⟨"n", "text", .text, none⟩]⟩ := rfl
  have horderly : Orderly files ids (start m) contested :=
    ⟨trivial, trivial, .inl rfl, .inl rfl, .inr rfl, ⟨hof (by decide +kernel), _, _, hschema, rfl⟩,
      ⟨.inr rfl, hof (by decide +kernel)⟩, trivial, .inl rfl,
      ⟨hof (by decide +kernel), _, _, hschema, rfl⟩, trivial, trivial, trivial, .inl rfl, .inl rfl,
      .inr rfl, trivial, trivial⟩
  exact ⟨hplaces, hclean, horderly, htickets, locks_exact hplaces hclean horderly htickets⟩

end Managers

end TextTables
