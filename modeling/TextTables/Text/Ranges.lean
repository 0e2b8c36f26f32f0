/-!
Character properties as lists of closed ranges of code points.
-/

namespace TextTables.Text

/-- Whether a code point lies in one of the ranges. -/
def inRanges (ranges : List (Nat × Nat)) (n : Nat) : Bool :=
  ranges.any fun r => r.1 ≤ n && n ≤ r.2

/-- Ranges that are ascending and do not touch. -/
def Ascending : List (Nat × Nat) → Bool
  | [] => true
  | [r] => r.1 ≤ r.2
  | r :: s :: rest => r.1 ≤ r.2 && r.2 + 1 < s.1 && Ascending (s :: rest)

/-- How many code points the ranges hold. -/
def rangesCount (ranges : List (Nat × Nat)) : Nat :=
  ranges.foldl (fun n r => n + (r.2 + 1 - r.1)) 0

end TextTables.Text
