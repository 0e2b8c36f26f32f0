import TextTables.Decimal.Binary64
/-!
The shortest decimal that reads back as a given binary value, and of the shortest the one nearest to
it. A decimal reads back as a value exactly when it lies between the midpoints to the value's two
neighbours, the midpoints included when the value's mantissa is even.
-/

namespace TextTables.Decimal

/-- The number `digits * 10 ^ exponent`. -/
structure Scientific where
  digits : Nat
  exponent : Int
deriving Repr, DecidableEq

/-- Compares `a * 10 ^ i` with `b * 2 ^ j`. -/
def compareScaled (a : Nat) (i : Int) (b : Nat) (j : Int) : Ordering :=
  compare (a * pow10 i.toNat * pow2 (-j).toNat) (b * pow2 j.toNat * pow10 (-i).toNat)

/-- Whether the gap to the value below is half the gap to the value above. -/
def Binary.narrowBelow (x : Binary) : Bool := x.mantissa = pow2 52 ∧ x.exponent ≠ -1074

/-- Whether a decimal lies among the numbers that round to `x`. -/
def Binary.readsBack (x : Binary) (d : Scientific) : Bool :=
  let below := if x.narrowBelow then 4 * x.mantissa - 1 else 4 * x.mantissa - 2
  let above := 4 * x.mantissa + 2
  let closed := x.mantissa % 2 == 0
  let low := compareScaled d.digits d.exponent below (x.exponent - 2)
  let high := compareScaled d.digits d.exponent above (x.exponent - 2)
  (low == .gt || (closed && low == .eq)) && (high == .lt || (closed && high == .eq))

/-- The least `k` with `x < 10 ^ k`. The binary logarithm gives a first guess that is too small by
two at most. -/
def Binary.scale (x : Binary) : Int :=
  let guess := ((x.mantissa.log2 : Int) + x.exponent) * 30103 / 100000
  if compareScaled 1 guess x.mantissa x.exponent == .gt then guess
  else if compareScaled 1 (guess + 1) x.mantissa x.exponent == .gt then guess + 1
  else guess + 2

/-- The greatest multiple of `10 ^ grid` that is not above `x`, counted in that unit. -/
def Binary.floorOn (x : Binary) (grid : Int) : Nat :=
  x.mantissa * pow2 x.exponent.toNat * pow10 (-grid).toNat
    / (pow2 (-x.exponent).toNat * pow10 grid.toNat)

/-- The point of the grid `10 ^ grid` nearest to `x` that reads back as `x`, if there is one. A tie
between two points goes to the upper one. -/
def Binary.onGrid? (x : Binary) (grid : Int) : Option Scientific :=
  let low : Scientific := ⟨x.floorOn grid, grid⟩
  let high : Scientific := ⟨x.floorOn grid + 1, grid⟩
  match x.readsBack low, x.readsBack high with
  | true, true =>
    if compareScaled (2 * low.digits + 1) grid (2 * x.mantissa) x.exponent == .gt then some low
    else some high
  | true, false => some low
  | false, true => some high
  | false, false => none

/-- All digits of `x`. -/
def Binary.exact (x : Binary) : Scientific :=
  if 0 ≤ x.exponent then ⟨x.mantissa * pow2 x.exponent.toNat, 0⟩
  else ⟨x.mantissa * Nat.pow 5 (-x.exponent).toNat, x.exponent⟩

/-- The decimal of fewest digits that reads back as `x`, which is not zero. Seventeen digits always
read back. -/
def Binary.shortest (x : Binary) : Scientific :=
  ((List.range 17).findSome? fun (n : Nat) => x.onGrid? (x.scale - n - 1)).getD x.exact

end TextTables.Decimal
