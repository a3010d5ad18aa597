import StyleBinding.Text.Basic

/-!
# Lines and columns

A line ends at a line feed and at nothing else. Lines and columns are counted
from one; the column of an offset is its distance from the start of its line.
-/

namespace StyleBinding

/-- A line and a column, both counted from one. -/
structure Position where
  line : Nat
  column : Nat
deriving DecidableEq

namespace Text

/-- The line of an offset: one more than the line feeds in front of it. -/
def lineOf (t : Text) (offset : Nat) : Nat := (t.take offset).count (.scalar '\n') + 1

/-- How far an offset lies behind the nearest line feed in front of it, or
behind the start of the text. -/
def sinceLineStart (t : Text) (offset : Nat) : Nat :=
  countWhile (!·.is '\n') (t.take offset).reverse

/-- The line and column of an offset. -/
def positionAt (t : Text) (offset : Nat) : Position where
  line := t.lineOf offset
  column := t.sinceLineStart offset + 1

end Text

end StyleBinding
