import TextTables.Decimal.Shortest
/-!
Written forms of numbers. `Layout.write` writes a float by its shortest digits, and `readFloat?`
reads the usual decimal notation, with or without a point or an exponent; `readInteger?` reads a
signed integer of 64 bits.
-/

namespace TextTables.Decimal

/-! ## Writing -/

/-- How the digits of a number are laid out. -/
structure Layout where
  /-- The least decimal point position that is written positionally; the point of `0.1` is at 0. -/
  leastPoint : Int
  /-- The greatest decimal point position that is written positionally. -/
  greatestPoint : Int

/-- The digits of a decimal without the zeros at the end, and the position of the point relative to
the first of them. -/
def Scientific.significant (d : Scientific) : List Char × Int :=
  let digits := Nat.toDigits 10 d.digits
  ((digits.reverse.dropWhile (· == '0')).reverse, digits.length + d.exponent)

/-- Digits with the point at a given position, at least one digit on each side of it. -/
def positional (digits : List Char) (point : Int) : List Char :=
  if point ≤ 0 then ['0', '.'] ++ List.replicate (-point).toNat '0' ++ digits
  else
    let whole := digits.take point.toNat
    let fraction := digits.drop point.toNat
    whole ++ List.replicate (point.toNat - whole.length) '0' ++ ['.']
      ++ (if fraction.isEmpty then ['0'] else fraction)

/-- Digits with the point after the first and a power of ten. -/
def exponential (digits : List Char) (point : Int) : List Char :=
  digits.take 1 ++ (if digits.length ≤ 1 then [] else '.' :: digits.drop 1)
    ++ 'e' :: (toString (point - 1)).toList

/-- The shortest decimal text of a float. -/
def Layout.write (layout : Layout) (x : Float) : String :=
  let bits := x.toBits
  let sign := if bits.toNat < pow2 63 then "" else "-"
  let magnitude := bits.toNat % pow2 63
  if infinityBits < magnitude then "NaN"
  else if magnitude = infinityBits then sign ++ "inf"
  else if magnitude = 0 then sign ++ "0.0"
  else
    let (digits, point) := (Binary.ofBits bits).shortest.significant
    let body :=
      if layout.leastPoint ≤ point ∧ point ≤ layout.greatestPoint then positional digits point
      else exponential digits point
    sign ++ String.ofList body

/-! ## Reading -/

/-- The number written by decimal digits. -/
def ofDigits (digits : List Char) : Nat := Nat.ofDigitChars 10 digits 0

/-- The float nearest to `± digits * 10 ^ exponent`. Far outside the range of floats the answer does
not depend on the digits. -/
def Scientific.toFloat (negative : Bool) (d : Scientific) : Float :=
  let size : Int := (Nat.toDigits 10 d.digits).length + d.exponent
  if d.digits = 0 ∨ size < -400 then nearest negative 0 1
  else if 400 < size then (if negative then -infinity else infinity)
  else nearest negative (d.digits * pow10 d.exponent.toNat) (pow10 (-d.exponent).toNat)

/-- A sign and what follows it. -/
def readSign : List Char → Bool × List Char
  | '-' :: rest => (true, rest)
  | '+' :: rest => (false, rest)
  | cs => (false, cs)

/-- A signed exponent of at least one digit. -/
def readExponent? (cs : List Char) : Option Int :=
  let (negative, digits) := readSign cs
  if digits.isEmpty || !digits.all Char.isDigit then none
  else some (if negative then -(ofDigits digits : Int) else ofDigits digits)

/-- The exponent that ends a number; a number may have none. -/
def readScale? : List Char → Option Int
  | [] => some 0
  | c :: rest => if c = 'e' ∨ c = 'E' then readExponent? rest else none

/-- An unsigned decimal number: digits, a point before, between or after them, and an exponent. -/
def readDecimal? (cs : List Char) : Option Scientific := do
  let whole := cs.takeWhile Char.isDigit
  let rest := cs.dropWhile Char.isDigit
  let (fraction, rest) :=
    match rest with
    | '.' :: rest => (rest.takeWhile Char.isDigit, rest.dropWhile Char.isDigit)
    | _ => ([], rest)
  if whole.isEmpty && fraction.isEmpty then none
  let exponent ← readScale? rest
  some ⟨ofDigits (whole ++ fraction), exponent - fraction.length⟩

/-- The float that a text writes: a decimal number, an infinity or "nan", in any case, after an
optional sign. -/
def readFloat? (cs : List Char) : Option Float :=
  let (negative, body) := readSign cs
  let word := String.ofList (body.map Char.toLower)
  if word = "inf" ∨ word = "infinity" then some (if negative then -infinity else infinity)
  else if word = "nan" then some notANumber
  else (readDecimal? body).map (·.toFloat negative)

/-- An integer of 64 bits, if the number is in their range. -/
def int64? (n : Int) : Option Int64 :=
  if -0x8000000000000000 ≤ n ∧ n < 0x8000000000000000 then some (Int64.ofInt n) else none

/-- The integer that a text writes: decimal digits after an optional sign. -/
def readInteger? (cs : List Char) : Option Int64 :=
  let (negative, digits) := readSign cs
  if digits.isEmpty || !digits.all Char.isDigit then none
  else int64? (if negative then -(ofDigits digits : Int) else ofDigits digits)

end TextTables.Decimal
