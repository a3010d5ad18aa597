import StyleBinding.Text.CodePoint

/-!
# Classes of code points as ranges

A class of code points is a list of closed ranges of numbers, ascending and
apart. Membership walks the list and stops at the first range beyond the number.
-/

namespace StyleBinding

/-- Whether a number lies in one of the ranges, which must be ascending. -/
def inRanges : List (Nat × Nat) → Nat → Bool
  | [], _ => false
  | (low, high) :: rest, n =>
    if n < low then false else n ≤ high || inRanges rest n

end StyleBinding
