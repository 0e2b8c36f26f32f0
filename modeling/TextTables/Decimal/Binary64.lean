/-!
Binary floating-point numbers of 64 bits as exact fractions: `ofBits` reads the bits of a finite
value, and `nearest` finds the value next to a fraction, a tie going to the even mantissa.
-/

namespace TextTables.Decimal

/-- A power of two. -/
def pow2 (n : Nat) : Nat := Nat.pow 2 n

/-- A power of ten. -/
def pow10 (n : Nat) : Nat := Nat.pow 10 n

/-- The non-negative number `mantissa * 2 ^ exponent`. -/
structure Binary where
  mantissa : Nat
  exponent : Int
deriving Repr, DecidableEq

/-- The magnitude of a finite value, read from its bits. -/
def Binary.ofBits (bits : UInt64) : Binary :=
  let exponent : Nat := bits.toNat / pow2 52 % pow2 11
  let fraction := bits.toNat % pow2 52
  if exponent = 0 then ⟨fraction, -1074⟩ else ⟨pow2 52 + fraction, (exponent : Int) - 1075⟩

/-- The quotient of two natural numbers, rounded to the nearest, a tie to the even neighbour. -/
def divideToEven (num den : Nat) : Nat :=
  let quotient := num / den
  let twice := 2 * (num % den)
  if twice < den then quotient
  else if den < twice then quotient + 1
  else quotient + quotient % 2

/-- The least exponent, not below that of the subnormal values, at which the fraction has a mantissa
of at most 53 bits. -/
def mantissaExponent (num den : Nat) : Int :=
  let guess : Int := (num.log2 : Int) - den.log2 - 53
  let fits := num * pow2 (-(guess + 53)).toNat < den * pow2 (guess + 53).toNat
  max (if fits then guess else guess + 1) (-1074)

/-- The bits of infinity. -/
def infinityBits : Nat := 0x7FF0000000000000

/-- The bits of the value nearest to `num / den`. Adding the mantissa to the exponent's bits carries
into them where rounding reaches the next power of two. -/
def nearestBits (num den : Nat) : Nat :=
  if num = 0 then 0
  else
    let exponent := mantissaExponent num den
    let mantissa := divideToEven (num * pow2 (-exponent).toNat) (den * pow2 exponent.toNat)
    min ((exponent + 1074).toNat * pow2 52 + mantissa) infinityBits

/-- The value nearest to a signed fraction. -/
def nearest (negative : Bool) (num den : Nat) : Float :=
  Float.ofBits (UInt64.ofNat (nearestBits num den + if negative then pow2 63 else 0))

/-- The value nearest to an integer. -/
def ofInt (n : Int) : Float := nearest (n < 0) n.natAbs 1

/-- Positive infinity. -/
def infinity : Float := Float.ofBits (UInt64.ofNat infinityBits)

/-- A value that is not a number. -/
def notANumber : Float := Float.ofBits 0x7FF8000000000000

end TextTables.Decimal
