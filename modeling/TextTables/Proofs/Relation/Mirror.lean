import Mathlib.Data.Multiset.Bind
import TextTables.Proofs.Reference
import TextTables.Proofs.Relation.OuterJoin
/-!
# Joins seen from the other side

A join of two tables and the mirrored join of the tables in the other order visit the same pairs of records,
in different orders, and look the names of their condition up in the two records in different orders. The
condition means the same (`accepts_swap`), so the accepted pairs are the same up to their order
(`innerRows_swap`), and the records of the kept side that are padded are the same, in the same order
(`exists_padded`).
-/

namespace TextTables

/-- The kind of join that keeps the same table when the tables change places. -/
def JoinKind.mirror : JoinKind → JoinKind
  | .inner => .inner
  | .left => .right
  | .right => .left

/-- A row with its first values, up to a width, behind the others. -/
def swapBlocks (width : Nat) (row : Row) : Row := row.drop width ++ row.take width

theorem swapBlocks_append {width : Nat} {l r : Row} (h : l.length = width) :
    swapBlocks width (l ++ r) = r ++ l := by
  rw [swapBlocks, List.drop_left' h, List.take_left' h]

/-! ## Conditions on pairs of records -/

section Conditions
variable {left right : Schema} {l r : Row} {ref : FieldRef}

/-- What a reference means in a pair of records does not depend on which of them comes first. -/
theorem Binding.lookup_swap (hl : l.length = left.width) (hr : r.length = right.width) :
    Binding.lookup [(left, l), (right, r)] ref = Binding.lookup [(right, r), (left, l)] ref := by
  -- Each side has no field for the reference, one or several.
  rcases hls : left.positions ref with _ | ⟨p, _ | ⟨p', ps⟩⟩ <;>
    rcases hrs : right.positions ref with _ | ⟨q, _ | ⟨q', qs⟩⟩ <;>
    simp only [lookup, lookupAfter, Schema.find?, hls, hrs]
  case cons.nil.cons.nil =>
    obtain ⟨v, hv⟩ := Schema.exists_value hl (hls ▸ List.mem_singleton_self p)
    obtain ⟨w, hw⟩ := Schema.exists_value hr (hrs ▸ List.mem_singleton_self q)
    simp only [bind, Except.bind, hv, hw]
    rfl
  all_goals rfl

theorem accepts_swap (on : Option Expression) (hl : l.length = left.width) (hr : r.length = right.width) :
    accepts on [(left, l), (right, r)] = accepts on [(right, r), (left, l)] := by
  cases on with
  | none => rfl
  | some e =>
    have hdatum : e.datum [(left, l), (right, r)] = e.datum [(right, r), (left, l)] :=
      Expression.datum_congr fun ref _ => Binding.lookup_swap hl hr
    simp only [accepts, Expression.holds, hdatum]

end Conditions

/-! ## Accepted pairs -/

section Pairs
variable {test test' : Row → Row → Except Error Bool} {lefts rights rows rows' : List Row} {width : Nat}

/-- Two nested loops visit the same pairs, whichever of them is the outer one. -/
theorem flatMap_swap {α β γ : Type} (as : List α) (bs : List β) (f : α → β → List γ) :
    (as.flatMap fun a => bs.flatMap (f a)).Perm (bs.flatMap fun b => as.flatMap fun a => f a b) := by
  have hbind := Multiset.bind_bind (as : Multiset α) (bs : Multiset β) (f := fun a b => (f a b : Multiset γ))
  simp only [Multiset.coe_bind] at hbind
  exact Multiset.coe_eq_coe.1 hbind

theorem map_filter_eq_flatMap {α β : Type} (p : α → Bool) (f : α → β) (as : List α) :
    (as.filter p).map f = as.flatMap fun a => if p a then [f a] else [] := by
  induction as with
  | nil => rfl
  | cons a rest ih => cases hp : p a <;> simp [hp, ih]

/-- Inner joins on tests that agree accept the same pairs. -/
theorem innerRows_swap (h : ∀ l ∈ lefts, ∀ r ∈ rights, test l r = test' r l)
    (hwidth : ∀ r ∈ rights, r.length = width) (hrows : innerRows test rights lefts = .ok rows)
    (hrows' : innerRows test' lefts rights = .ok rows') : rows.Perm (rows'.map (swapBlocks width)) := by
  obtain ⟨-, rfl⟩ := innerRows_eq_ok.1 hrows
  obtain ⟨-, rfl⟩ := innerRows_eq_ok.1 hrows'
  simp only [map_filter_eq_flatMap, List.map_flatMap]
  refine (flatMap_swap lefts rights _).trans (.of_eq ?_)
  refine List.flatMap_congr fun r hr => List.flatMap_congr fun l hl => ?_
  rw [h l hl r hr]
  split
  · rw [List.map_singleton, swapBlocks_append (hwidth r hr)]
  · rfl

theorem exists_innerRows_swap (h : ∀ l ∈ lefts, ∀ r ∈ rights, test l r = test' r l) :
    (∃ rows, innerRows test rights lefts = .ok rows) ↔ ∃ rows, innerRows test' lefts rights = .ok rows := by
  simp only [innerRows_eq_ok, exists_and_left, exists_eq', and_true]
  constructor
  · intro hall r hr l hl
    rw [← h l hl r hr]
    exact hall l hl r hr
  · intro hall l hl r hr
    rw [h l hl r hr]
    exact hall r hr l hl

end Pairs

/-! ## Padded records -/

/-- Whether a row ends with a record. -/
def endsWith (width : Nat) (right row : Row) : Bool := row.drop width == right

/-- Where the rows of one list end with the records that those of the other start with, the same records are
added to both, padded on the one side and on the other. -/
theorem exists_padded {width padding : Nat} {records rows rows' : List Row}
    (hrecords : ∀ record ∈ records, record.length = width)
    (h : ∀ record, rows.any (endsWith padding record) = rows'.any (startsWith width record)) :
    ∃ padded : List Row, padded.Sublist records ∧
      keepRight padding rows records = rows ++ padded.map (emptyRow padding ++ ·) ∧
      keepLeft width padding rows' records = rows' ++ padded.map (· ++ emptyRow padding) := by
  induction records generalizing rows rows' with
  | nil => exact ⟨[], .slnil, by simp [keepRight], by simp [keepLeft]⟩
  | cons record rest ih =>
    obtain ⟨hlength, hrest⟩ := List.forall_mem_cons.1 hrecords
    have hright : keepRight padding rows (record :: rest) =
        keepRight padding (if rows.any (endsWith padding record) then rows
          else rows ++ [emptyRow padding ++ record]) rest := rfl
    rw [hright, keepLeft_cons, h record]
    cases rows'.any (startsWith width record) with
    | true =>
      obtain ⟨padded, hsub, hkeep, hkeep'⟩ := ih hrest h
      exact ⟨padded, hsub.cons record, hkeep, hkeep'⟩
    | false =>
      -- The padded record ends the new row of the one list and starts that of the other.
      have hnext : ∀ other, (rows ++ [emptyRow padding ++ record]).any (endsWith padding other) =
          (rows' ++ [record ++ emptyRow padding]).any (startsWith width other) := by
        intro other
        simp only [List.any_append, h other, List.any_cons, List.any_nil, endsWith, startsWith,
          List.drop_left' (List.length_replicate ..), List.take_left' hlength, emptyRow]
      obtain ⟨padded, hsub, hkeep, hkeep'⟩ := ih hrest hnext
      refine ⟨record :: padded, hsub.cons_cons record, ?_, ?_⟩
      · rw [if_neg Bool.false_ne_true, hkeep, List.map_cons, List.append_assoc, List.singleton_append]
      · rw [if_neg Bool.false_ne_true, hkeep', List.map_cons, List.append_assoc, List.singleton_append]

theorem any_endsWith {width padding : Nat} {rows rows' : List Row} (hperm : rows.Perm (rows'.map (swapBlocks width)))
    (hlength : ∀ row ∈ rows', row.length = width + padding) (record : Row) :
    rows.any (endsWith padding record) = rows'.any (startsWith width record) := by
  have hswap : ∀ row ∈ rows', endsWith padding record (swapBlocks width row) = startsWith width record row := by
    intro row hrow
    have hdrop : (row.drop width).length = padding := by
      rw [List.length_drop, hlength row hrow, Nat.add_sub_cancel_left]
    rw [endsWith, swapBlocks, List.drop_left' hdrop, startsWith]
  rw [hperm.any_eq, List.any_map, Bool.eq_iff_iff, List.any_eq_true, List.any_eq_true]
  refine exists_congr fun row => and_congr_right fun hrow => ?_
  rw [Function.comp_apply, hswap row hrow]

/-! ## Joins -/

namespace Table

variable {left right : Table} {rows rows' : List Row}

/-- What outer joins add to two lists of rows that are the same but for their order and that of the two
blocks of columns. -/
theorem keptRows_mirror (hl : left.Rectangular) (hr : right.Rectangular)
    (hperm : rows.Perm (rows'.map (swapBlocks right.schema.width)))
    (hperm' : rows'.Perm (rows.map (swapBlocks left.schema.width)))
    (hlength : ∀ row ∈ rows, row.length = left.schema.width + right.schema.width)
    (hlength' : ∀ row ∈ rows', row.length = right.schema.width + left.schema.width) (kind : JoinKind) :
    ∃ padded : List Row, left.keptRows right kind rows = rows ++ padded.map (swapBlocks right.schema.width) ∧
      right.keptRows left kind.mirror rows' = rows' ++ padded := by
  cases kind with
  | inner => exact ⟨[], by simp [keptRows], by simp [keptRows, JoinKind.mirror]⟩
  | left =>
    obtain ⟨padded, -, hkeep', hkeep⟩ := exists_padded hl (any_endsWith hperm' hlength)
    refine ⟨padded.map (emptyRow right.schema.width ++ ·), ?_, hkeep'⟩
    rw [keptRows, hkeep, List.map_map]
    congr 2
    funext record
    exact (swapBlocks_append (List.length_replicate ..)).symm
  | right =>
    obtain ⟨padded, hsub, hkeep, hkeep'⟩ := exists_padded hr (any_endsWith hperm hlength')
    refine ⟨padded.map (· ++ emptyRow left.schema.width), ?_, hkeep'⟩
    rw [keptRows, hkeep, List.map_map]
    congr 1
    exact List.map_congr_left fun record hrecord => (swapBlocks_append (hr record (hsub.subset hrecord))).symm

/-- A join of two tables succeeds exactly if the mirrored join of the tables in the other order does, and their
rows are the same but for their order and that of the two blocks of columns. In both of them the rows of the
inner join come first, and what an outer join adds to these is the same in the same order. -/
theorem join_mirror (hl : left.Rectangular) (hr : right.Rectangular) (on : Option Expression) (kind : JoinKind) :
    ((∃ joined, left.join right on kind = .ok joined) ↔ ∃ mirrored, right.join left on kind.mirror = .ok mirrored) ∧
    ∀ joined mirrored, left.join right on kind = .ok joined → right.join left on kind.mirror = .ok mirrored →
      joined.rows.Perm (mirrored.rows.map (swapBlocks right.schema.width)) ∧
      ∃ inner inner' padded,
        left.join right on .inner = .ok inner ∧ right.join left on .inner = .ok inner' ∧
        inner.rows.Perm (inner'.rows.map (swapBlocks right.schema.width)) ∧
        joined.rows = inner.rows ++ padded.map (swapBlocks right.schema.width) ∧
        mirrored.rows = inner'.rows ++ padded := by
  have hsame : ∀ l ∈ left.rows, ∀ r ∈ right.rows,
      accepts on [(left.schema, l), (right.schema, r)] = accepts on [(right.schema, r), (left.schema, l)] :=
    fun l hlmem r hrmem => accepts_swap on (hl l hlmem) (hr r hrmem)
  refine ⟨?_, fun joined mirrored hjoined hmirrored => ?_⟩
  · simp only [join_eq_ok, exists_comm (α := Table), exists_and_left, exists_eq, and_true]
    exact exists_innerRows_swap hsame
  · obtain ⟨rows, hrows, rfl⟩ := join_eq_ok.1 hjoined
    obtain ⟨rows', hrows', rfl⟩ := join_eq_ok.1 hmirrored
    have hperm := innerRows_swap hsame hr hrows hrows'
    have hperm' := innerRows_swap (fun r hrmem l hlmem => (hsame l hlmem r hrmem).symm) hl hrows' hrows
    have hlength : ∀ row ∈ rows, row.length = left.schema.width + right.schema.width := by
      intro row hrow
      obtain ⟨l, hlmem, r, hrmem, -, rfl⟩ := (mem_innerRows hrows).1 hrow
      rw [List.length_append, hl l hlmem, hr r hrmem]
    have hlength' : ∀ row ∈ rows', row.length = right.schema.width + left.schema.width := by
      intro row hrow
      obtain ⟨r, hrmem, l, hlmem, -, rfl⟩ := (mem_innerRows hrows').1 hrow
      rw [List.length_append, hr r hrmem, hl l hlmem]
    obtain ⟨padded, hkept, hkept'⟩ := keptRows_mirror hl hr hperm hperm' hlength hlength' kind
    refine ⟨?_, _, _, padded, join_eq_ok.2 ⟨rows, hrows, rfl⟩, join_eq_ok.2 ⟨rows', hrows', rfl⟩, hperm, hkept, hkept'⟩
    dsimp only
    rw [hkept, hkept', List.map_append]
    exact hperm.append_right _

/-- Both records on the left are joined with two records on the right, in another order from the other side,
and of the two records that match none one is padded. -/
theorem join_mirror_named :
    let left := named "l" ["ann", "bob"]
    let right := named "r" ["bob", "ann", "cid", "cid"]
    let on := some (Expression.binary (.compare .less) (.field ⟨some "r", "name"⟩) (.constant (.text "c")))
    ∃ joined mirrored, left.join right on .right = .ok joined ∧ right.join left on .left = .ok mirrored ∧
      joined.rows = [[.text "ann", .text "bob"], [.text "ann", .text "ann"], [.text "bob", .text "bob"],
        [.text "bob", .text "ann"], [.text "", .text "cid"]] ∧
      mirrored.rows = [[.text "bob", .text "ann"], [.text "bob", .text "bob"], [.text "ann", .text "ann"],
        [.text "ann", .text "bob"], [.text "cid", .text ""]] ∧
      joined.rows.Perm (mirrored.rows.map (swapBlocks right.schema.width)) := by
  intro left right on
  have hl : left.Rectangular := by
    simp [Rectangular, left, named, Schema.width]
  have hr : right.Rectangular := by
    simp [Rectangular, right, named, Schema.width]
  have hjoined : left.join right on .right = .ok ⟨⟨"d", "l"⟩, left.schema ++ right.schema,
      [[.text "ann", .text "bob"], [.text "ann", .text "ann"], [.text "bob", .text "bob"],
        [.text "bob", .text "ann"], [.text "", .text "cid"]]⟩ := by
    rfl
  have hmirrored : right.join left on .left = .ok ⟨⟨"d", "r"⟩, right.schema ++ left.schema,
      [[.text "bob", .text "ann"], [.text "bob", .text "bob"], [.text "ann", .text "ann"],
        [.text "ann", .text "bob"], [.text "cid", .text ""]]⟩ := by
    rfl
  obtain ⟨-, hmirror⟩ := join_mirror hl hr on .right
  obtain ⟨hperm, -⟩ := hmirror _ _ hjoined hmirrored
  exact ⟨_, _, hjoined, hmirrored, rfl, rfl, hperm⟩

end Table

end TextTables
