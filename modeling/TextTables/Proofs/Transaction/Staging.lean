import Mathlib.Tactic.Common
import TextTables.Transaction
/-!
# Staged and held tables

What is staged and what is held after each change to a transaction.
-/

namespace TextTables

variable {t : Transaction} {table table' : Table} {id : TableId} {name : String}

theorem mem_insertTable {tables : List Table} (h : table' ∈ insertTable table tables) :
    table' = table ∨ table' ∈ tables := by
  induction tables with
  | nil => simpa [insertTable] using h
  | cons other rest ih =>
    simp only [insertTable] at h
    split at h
    · rcases List.mem_cons.1 h with rfl | h
      · exact .inl rfl
      · exact .inr (List.mem_cons_of_mem _ h)
    · split at h
      · simpa using h
      · rcases List.mem_cons.1 h with rfl | h
        · exact .inr List.mem_cons_self
        · exact (ih h).imp_right (List.mem_cons_of_mem _)

/-! ## The order of identities -/

namespace TableId

variable {a b c : TableId}

theorem before_iff :
    a.before b = true ↔ a.database < b.database ∨ a.database = b.database ∧ a.name < b.name := by
  simp [before]

theorem before_trans (h : a.before b = true) (h' : b.before c = true) : a.before c = true := by
  rw [before_iff] at h h' ⊢
  rcases h with h | ⟨hd, h⟩
  · rcases h' with h' | ⟨hd', -⟩
    · exact .inl (String.lt_trans h h')
    · exact .inl (hd' ▸ h)
  · rcases h' with h' | ⟨hd', h'⟩
    · exact .inl (hd ▸ h')
    · exact .inr ⟨hd.trans hd', String.lt_trans h h'⟩

theorem ne_of_before (h : a.before b = true) : a ≠ b := by
  rintro rfl
  rcases before_iff.1 h with h | ⟨-, h⟩ <;> exact String.lt_irrefl _ h

theorem before_of_not_before (hne : a ≠ b) (h : a.before b = false) : b.before a = true := by
  have hnot : ¬ (a.database < b.database ∨ a.database = b.database ∧ a.name < b.name) :=
    fun hbefore => Bool.false_ne_true (h.symm.trans (before_iff.2 hbefore))
  obtain ⟨hdatabase, hname⟩ := not_or.1 hnot
  rw [before_iff]
  by_cases hd : a.database = b.database
  · have hle := String.not_lt.1 fun hlt => hname ⟨hd, hlt⟩
    have hn : a.name ≠ b.name := fun hn => hne (by cases a; cases b; simp_all)
    exact .inr ⟨hd.symm, String.not_le.1 fun hle' => hn (String.le_antisymm hle' hle)⟩
  · exact .inl (String.not_le.1 fun hle => hd (String.le_antisymm hle (String.not_lt.1 hdatabase)))

end TableId

/-- The tables of a transaction are in the order of their identities, so no two have the same. -/
def Transaction.Ordered (t : Transaction) : Prop :=
  t.staged.Pairwise fun a b => a.id.before b.id = true

theorem ordered_insertTable {tables : List Table}
    (h : tables.Pairwise fun a b => a.id.before b.id = true) :
    (insertTable table tables).Pairwise fun a b => a.id.before b.id = true := by
  induction tables with
  | nil => simp [insertTable]
  | cons other rest ih =>
    obtain ⟨hother, hrest⟩ := List.pairwise_cons.1 h
    simp only [insertTable]
    split
    · next heq => exact List.pairwise_cons.2 ⟨fun b hb => heq ▸ hother b hb, hrest⟩
    · next hne =>
      split
      · next hbefore =>
        exact List.pairwise_cons.2 ⟨List.forall_mem_cons.2
          ⟨hbefore, fun b hb => TableId.before_trans hbefore (hother b hb)⟩, h⟩
      · next hnot =>
        refine List.pairwise_cons.2 ⟨fun b hb => ?_, ih hrest⟩
        rcases mem_insertTable hb with rfl | hb
        · exact TableId.before_of_not_before hne (by simpa using hnot)
        · exact hother b hb

theorem mem_insertTable_iff {tables : List Table}
    (h : tables.Pairwise fun a b => a.id.before b.id = true) :
    table' ∈ insertTable table tables ↔ table' = table ∨ table' ∈ tables ∧ table'.id ≠ table.id := by
  induction tables with
  | nil => simp [insertTable]
  | cons other rest ih =>
    obtain ⟨hother, hrest⟩ := List.pairwise_cons.1 h
    simp only [insertTable]
    split
    · next heq =>
      -- The tables behind one of the same identity have others.
      have hne : ∀ b ∈ rest, b.id ≠ table.id := fun b hb =>
        heq ▸ (TableId.ne_of_before (hother b hb)).symm
      rw [List.mem_cons, List.mem_cons]
      constructor
      · rintro (h | hmem)
        · exact .inl h
        · exact .inr ⟨.inr hmem, hne _ hmem⟩
      · rintro (h | ⟨rfl | hmem, hid⟩)
        · exact .inl h
        · exact absurd heq.symm hid
        · exact .inr hmem
    · next hne =>
      split
      · next hbefore =>
        have hafter : ∀ b ∈ other :: rest, b.id ≠ table.id := List.forall_mem_cons.2
          ⟨Ne.symm hne, fun b hb => (TableId.ne_of_before (TableId.before_trans hbefore (hother b hb))).symm⟩
        rw [List.mem_cons]
        exact or_congr_right (and_iff_left_of_imp (hafter _)).symm
      · rw [List.mem_cons, ih hrest, List.mem_cons]
        constructor
        · rintro (rfl | h | ⟨hmem, hid⟩)
          · exact .inr ⟨.inl rfl, Ne.symm hne⟩
          · exact .inl h
          · exact .inr ⟨.inr hmem, hid⟩
        · rintro (h | ⟨rfl | hmem, hid⟩)
          · exact .inr (.inl h)
          · exact .inl rfl
          · exact .inr (.inr ⟨hmem, hid⟩)

theorem mem_insertId {other : TableId} {ids : List TableId} :
    other ∈ insertId id ids ↔ other = id ∨ other ∈ ids := by
  induction ids with
  | nil => simp [insertId]
  | cons first rest ih =>
    simp only [insertId]
    split
    · next h => subst h; simp
    · split
      · simp
      · rw [List.mem_cons, ih, List.mem_cons]
        exact or_left_comm

namespace Transaction

theorem staged?_eq_some (h : t.staged? id = some table) : table ∈ t.staged ∧ table.id = id :=
  ⟨List.mem_of_find?_eq_some h, by simpa using List.find?_some h⟩

theorem isSome_staged? (h : table ∈ t.staged) : (t.staged? table.id).isSome = true := by
  rw [staged?, List.find?_isSome]
  exact ⟨table, h, by simp⟩

theorem mem_staged_stage (h : table' ∈ (t.stage table).staged) :
    table' = table ∨ table' ∈ t.staged :=
  mem_insertTable h

/-- Staging a table puts it in the place of the copy of the same identity. -/
theorem staged?_stage :
    (t.stage table).staged? id = if table.id = id then some table else t.staged? id := by
  simp only [staged?, Transaction.stage]
  induction t.staged with
  | nil => by_cases h : table.id = id <;> simp [insertTable, h]
  | cons other rest ih =>
    simp only [insertTable]
    split
    · next heq =>
      by_cases h : table.id = id
      · simp [h]
      · simp [h, ← heq]
    · next hne =>
      split
      · by_cases h : table.id = id <;> simp [h]
      · by_cases h : other.id = id
        · have hid : table.id ≠ id := fun hid => hne (hid.trans h.symm)
          simp [h, hid]
        · simp only [List.find?_cons, beq_eq_false_iff_ne.2 h, ih]

theorem mem_staged_forgetTable : table ∈ (t.forgetTable id).staged ↔ table ∈ t.staged ∧ table.id ≠ id := by
  simp [forgetTable]

theorem mem_staged_forgetDatabase :
    table ∈ (t.forgetDatabase name).staged ↔
      table ∈ t.staged ∧ Text.sameIgnoringCase table.id.database name = false := by
  simp [forgetDatabase]

theorem Ordered.stage (h : t.Ordered) : (t.stage table).Ordered := ordered_insertTable h

theorem Ordered.mem_stage (h : t.Ordered) :
    table' ∈ (t.stage table).staged ↔ table' = table ∨ table' ∈ t.staged ∧ table'.id ≠ table.id :=
  mem_insertTable_iff h

theorem Ordered.hold (h : t.Ordered) : (t.hold id).Ordered := h

theorem Ordered.letGo (h : t.Ordered) : (t.letGo id).Ordered := h

theorem Ordered.forgetTable (h : t.Ordered) : (t.forgetTable id).Ordered := List.Pairwise.filter _ h

theorem Ordered.forgetDatabase (h : t.Ordered) : (t.forgetDatabase name).Ordered :=
  List.Pairwise.filter _ h

/-- Two staged tables of one identity are the same. -/
theorem Ordered.eq_of_id (h : t.Ordered) (hm : table ∈ t.staged) (hm' : table' ∈ t.staged)
    (hid : table.id = table'.id) : table = table' := by
  unfold Ordered at h
  generalize t.staged = tables at h hm hm'
  induction tables with
  | nil => cases hm
  | cons first rest ih =>
    obtain ⟨hfirst, hrest⟩ := List.pairwise_cons.1 h
    rcases List.mem_cons.1 hm with heq | hlater <;> rcases List.mem_cons.1 hm' with heq' | hlater'
    · exact heq.trans heq'.symm
    · exact absurd (heq ▸ hid) (TableId.ne_of_before (hfirst _ hlater'))
    · exact absurd (heq' ▸ hid.symm) (TableId.ne_of_before (hfirst _ hlater))
    · exact ih hrest hlater hlater'

theorem Ordered.staged?_eq (h : t.Ordered) (hm : table ∈ t.staged) : t.staged? table.id = some table := by
  obtain ⟨other, hother⟩ := Option.isSome_iff_exists.1 (isSome_staged? hm)
  obtain ⟨hmem, hid⟩ := staged?_eq_some hother
  rw [hother, h.eq_of_id hmem hm hid]

theorem mem_locked_hold {other : TableId} : other ∈ (t.hold id).locked ↔ other = id ∨ other ∈ t.locked :=
  mem_insertId

theorem mem_locked_letGo {other : TableId} :
    other ∈ (t.letGo id).locked ↔ other ∈ t.locked ∧ other ≠ id := by
  simp [letGo]

theorem mem_locked_forgetDatabase :
    id ∈ (t.forgetDatabase name).locked ↔ id ∈ t.locked ∧ Text.sameIgnoringCase id.database name = false := by
  simp [forgetDatabase]

/-! ## What a transaction knows -/

/-- A transaction has staged a table or holds it. -/
def Knows (t : Transaction) (id : TableId) : Prop := (∃ table ∈ t.staged, table.id = id) ∨ id ∈ t.locked

theorem Knows.staged (h : table ∈ t.staged) : t.Knows table.id := .inl ⟨table, h, rfl⟩

theorem not_knows_start {ticket : Ticket} : ¬ (start ticket).Knows id := by
  rintro (⟨table, hm, -⟩ | hm) <;> cases hm

theorem knows_of_stage (h : (t.stage table).Knows id) : id = table.id ∨ t.Knows id := by
  rcases h with ⟨staged, hm, rfl⟩ | hm
  · exact (mem_staged_stage hm).imp (congrArg Table.id) .staged
  · exact .inr (.inr hm)

theorem knows_of_hold {other : TableId} (h : (t.hold other).Knows id) : id = other ∨ t.Knows id := by
  rcases h with hm | hm
  · exact .inr (.inl hm)
  · exact (mem_locked_hold.1 hm).imp_right .inr

theorem knows_of_letGo {other : TableId} (h : (t.letGo other).Knows id) : t.Knows id :=
  h.imp_right fun hm => (mem_locked_letGo.1 hm).1

theorem knows_of_forgetTable {other : TableId} (h : (t.forgetTable other).Knows id) : t.Knows id := by
  rcases h with ⟨staged, hm, rfl⟩ | hm
  · exact .staged (mem_staged_forgetTable.1 hm).1
  · exact .inr (List.mem_filter.1 hm).1

theorem knows_forgetDatabase :
    (t.forgetDatabase name).Knows id ↔ t.Knows id ∧ Text.sameIgnoringCase id.database name = false := by
  simp only [Knows, mem_staged_forgetDatabase, mem_locked_forgetDatabase, or_and_right]
  refine or_congr_left ⟨?_, ?_⟩
  · rintro ⟨table, ⟨hm, hne⟩, rfl⟩
    exact ⟨⟨table, hm, rfl⟩, hne⟩
  · rintro ⟨⟨table, hm, rfl⟩, hne⟩
    exact ⟨table, ⟨hm, hne⟩, rfl⟩

end Transaction

end TextTables
