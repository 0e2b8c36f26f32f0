import Mathlib.Data.String.Basic
import TextTables.Proofs.Decimal.Order
/-!
# The order of values

Two values have an order if both are numbers or both are texts (`Value.Comparable`). It is transitive
(`Value.order?_trans`), although two integers are compared exactly while one is rounded to be compared with a
float. So two integers may be level with one float and not with each other.
-/

namespace TextTables

open Decimal (rank_ofInt_mono isNumber_ofInt floatOrder?_eq)

namespace Value

variable {a b c : Value} {order : Ordering}

/-! ## Comparable values -/

/-- Whether a value is a number, in meaning and not only in type. -/
def IsNumber : Value → Prop
  | .integer _ => True
  | .float x => Decimal.IsNumber x
  | .text _ => False

/-- The place of a number among all floats. -/
def rank : Value → ℤ
  | .integer n => Decimal.rank (Decimal.ofInt n.toInt)
  | .float x => Decimal.rank x
  | .text _ => 0

/-- The values that have an order. -/
inductive Comparable : Value → Value → Prop
  | texts (s t : String) : Comparable (.text s) (.text t)
  | numbers {a b : Value} : a.IsNumber → b.IsNumber → Comparable a b

/-- Numbers are compared as floats are, unless both are integers. -/
theorem order?_of_isNumber (ha : a.IsNumber) (hb : b.IsNumber) :
    (∃ m n, a = .integer m ∧ b = .integer n) ∨ a.order? b = some (compare a.rank b.rank) := by
  cases a with
  | text s => cases ha
  | integer m =>
    cases b with
    | text t => cases hb
    | integer n => exact .inl ⟨m, n, rfl, rfl⟩
    | float y => exact .inr ((floatOrder?_eq _ y).trans (if_pos ⟨isNumber_ofInt _, hb⟩))
  | float x =>
    cases b with
    | text t => cases hb
    | integer n => exact .inr ((floatOrder?_eq x _).trans (if_pos ⟨ha, isNumber_ofInt _⟩))
    | float y => exact .inr ((floatOrder?_eq x y).trans (if_pos ⟨ha, hb⟩))

theorem isNumber_of_floatOrder? {x y : Float} (h : floatOrder? x y = some order) :
    Decimal.IsNumber x ∧ Decimal.IsNumber y := by
  rw [floatOrder?_eq] at h
  by_contra hnot
  rw [if_neg hnot] at h
  cases h

theorem comparable_iff : Comparable a b ↔ ∃ order, a.order? b = some order := by
  constructor
  · rintro (⟨s, t⟩ | ⟨ha, hb⟩)
    · exact ⟨_, rfl⟩
    · obtain ⟨m, n, rfl, rfl⟩ | h := order?_of_isNumber ha hb
      · exact ⟨_, rfl⟩
      · exact ⟨_, h⟩
  · rintro ⟨order, h⟩
    match a, b with
    | .text s, .text t => exact .texts s t
    | .text _, .integer _ | .text _, .float _ | .integer _, .text _ | .float _, .text _ => cases h
    | .integer _, .integer _ => exact .numbers trivial trivial
    | .integer _, .float y => exact .numbers trivial (isNumber_of_floatOrder? h).2
    | .float x, .integer _ => exact .numbers (isNumber_of_floatOrder? h).1 trivial
    | .float x, .float y => exact .numbers (isNumber_of_floatOrder? h).1 (isNumber_of_floatOrder? h).2

theorem order?_eq_none : a.order? b = none ↔ ¬Comparable a b := by
  rw [comparable_iff, ← Option.isSome_iff_exists, Option.not_isSome_iff_eq_none]

theorem Comparable.symm (h : Comparable a b) : Comparable b a := by
  cases h with
  | texts s t => exact .texts t s
  | numbers ha hb => exact .numbers hb ha

instance : Std.Symm Comparable := ⟨fun _ _ => Comparable.symm⟩

theorem Comparable.trans (h : Comparable a b) (h' : Comparable b c) : Comparable a c := by
  cases h with
  | texts s t =>
    cases h' with
    | texts _ u => exact .texts s u
    | numbers ht => cases ht
  | numbers ha hb =>
    cases h' with
    | texts => cases hb
    | numbers _ hc => exact .numbers ha hc

/-! ## The laws of the order -/

theorem order?_swap (a b : Value) : b.order? a = (a.order? b).map Ordering.swap := by
  have hswap {κ : Type} [LinearOrder κ] (x y : κ) : compare x y = (compare y x).swap := Std.OrientedCmp.eq_swap
  by_cases h : Comparable a b
  · cases h with
    | texts s t => exact congrArg some (hswap t s)
    | numbers ha hb =>
      obtain ⟨m, n, rfl, rfl⟩ | hab := order?_of_isNumber ha hb
      · exact congrArg some (hswap n.toInt m.toInt)
      · obtain ⟨n, m, rfl, rfl⟩ | hba := order?_of_isNumber hb ha
        · exact congrArg some (hswap n.toInt m.toInt)
        · rw [hab, hba, Option.map_some, hswap]
  · rw [order?_eq_none.2 h, order?_eq_none.2 (mt Comparable.symm h), Option.map_none]

theorem order?_of_rank_lt (ha : a.IsNumber) (hb : b.IsNumber) (h : b.rank < a.rank) : a.order? b = some .gt := by
  obtain ⟨m, n, rfl, rfl⟩ | heq := order?_of_isNumber ha hb
  · have hlt : n.toInt < m.toInt := lt_of_not_ge fun hle => (rank_ofInt_mono hle).not_gt h
    exact congrArg some (compare_gt_iff_gt.2 hlt)
  · rw [heq, compare_gt_iff_gt.2 h]

theorem rank_lt_of_order? (ha : a.IsNumber) (hb : b.IsNumber) (h : a.order? b = some .gt) :
    (∃ m n : Int64, a = .integer m ∧ b = .integer n ∧ n.toInt < m.toInt) ∨ b.rank < a.rank := by
  obtain ⟨m, n, rfl, rfl⟩ | heq := order?_of_isNumber ha hb
  · exact .inl ⟨m, n, rfl, rfl, compare_gt_iff_gt.1 (Option.some.inj h)⟩
  · exact .inr (compare_gt_iff_gt.1 (Option.some.inj (heq.symm.trans h)))

theorem order?_gt_trans (h : a.order? b = some .gt) (h' : b.order? c = some .gt) : a.order? c = some .gt := by
  have hab := comparable_iff.2 ⟨_, h⟩
  have hbc := comparable_iff.2 ⟨_, h'⟩
  cases hab with
  | texts s t =>
    cases hbc with
    | texts _ u =>
      have hlt : t < s := compare_gt_iff_gt.1 (Option.some.inj h)
      have hlt' : u < t := compare_gt_iff_gt.1 (Option.some.inj h')
      exact congrArg some (compare_gt_iff_gt.2 (hlt'.trans hlt))
    | numbers ht => cases ht
  | numbers ha hb =>
    cases hbc with
    | texts => cases hb
    | numbers _ hc =>
      obtain ⟨l, m, rfl, rfl, hlm⟩ | hlt := rank_lt_of_order? ha hb h
      · obtain ⟨_, n, hm, rfl, hmn⟩ | hlt' := rank_lt_of_order? hb hc h'
        · cases hm
          exact congrArg some (compare_gt_iff_gt.2 (hmn.trans hlm))
        · exact order?_of_rank_lt ha hc (hlt'.trans_le (rank_ofInt_mono hlm.le))
      · obtain ⟨m, n, rfl, rfl, hmn⟩ | hlt' := rank_lt_of_order? hb hc h'
        · exact order?_of_rank_lt ha hc ((rank_ofInt_mono hmn.le).trans_lt hlt)
        · exact order?_of_rank_lt ha hc (hlt'.trans hlt)

/-- Precedence is transitive in both directions. Being level is not. -/
theorem order?_trans (hne : order ≠ .eq) (h : a.order? b = some order) (h' : b.order? c = some order) :
    a.order? c = some order := by
  cases order with
  | eq => exact absurd rfl hne
  | gt => exact order?_gt_trans h h'
  | lt =>
    have hba : b.order? a = some .gt := by rw [order?_swap, h, Option.map_some, Ordering.swap_lt]
    have hcb : c.order? b = some .gt := by rw [order?_swap, h', Option.map_some, Ordering.swap_lt]
    rw [order?_swap, order?_gt_trans hcb hba, Option.map_some, Ordering.swap_gt]

example :
    let exact : Int64 := 9007199254740992
    let rounded : Value := .float (Decimal.ofInt exact.toInt)
    (Value.integer (exact + 1)).order? rounded = some .eq ∧ rounded.order? (.integer exact) = some .eq ∧
      (Value.integer (exact + 1)).order? (.integer exact) = some .gt := by
  decide +kernel

theorem order?_self (hne : order ≠ .eq) (a : Value) : a.order? a ≠ some order := by
  intro h
  have hswap := order?_swap a a
  rw [h, Option.map_some] at hswap
  cases order <;> cases hswap
  exact hne rfl

end Value

end TextTables
