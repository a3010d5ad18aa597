import StyleBinding.Text.Basic

/-!
# Hexadecimal numbers

Reading and writing code point numbers in base sixteen. Both letter cases are
read; lower case is written, padded with zeros to a given width.
-/

namespace StyleBinding

/-- The value of a hexadecimal digit. -/
def hexValue? (c : Char) : Option Nat :=
  if '0' ≤ c && c ≤ '9' then some (c.toNat - '0'.toNat)
  else if 'a' ≤ c && c ≤ 'f' then some (c.toNat - 'a'.toNat + 10)
  else if 'A' ≤ c && c ≤ 'F' then some (c.toNat - 'A'.toNat + 10)
  else none

namespace CodePoint

/-- The value of a hexadecimal digit. -/
def hexValue? : CodePoint → Option Nat
  | scalar c => StyleBinding.hexValue? c
  | surrogate _ => none

/-- Whether a code point is a hexadecimal digit. -/
def isHex (c : CodePoint) : Bool := c.hexValue?.isSome

end CodePoint

namespace Text

/-- The number that a run of hexadecimal digits writes; other code points count
as zero. -/
def hexNumber (digits : Text) : Nat :=
  digits.foldl (fun n c => 16 * n + c.hexValue?.getD 0) 0

/-- A number in lower-case hexadecimal, at least `width` digits wide. -/
def ofHex (width n : Nat) : Text :=
  let digits := Nat.toDigits 16 n
  (List.replicate (width - digits.length) '0' ++ digits).map .scalar

end Text

end StyleBinding
