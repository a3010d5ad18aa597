import StyleBinding.Text.Hexadecimal
import StyleBinding.Text.Printable

/-!
# Quoted texts

How a text is shown inside a message: between apostrophes, or between quotation
marks when it holds an apostrophe and no quotation mark. Backslashes, the
enclosing mark and every code point that does not show as itself are escaped,
the latter by number in two, four or eight hexadecimal digits.
-/

namespace StyleBinding

/-- One code point inside quotes of the given kind. -/
def CodePoint.quoted (mark : Char) (c : CodePoint) : Text :=
  if c.is mark || c.is '\\' then [.scalar '\\', c]
  else if c.is '\n' then "\\n"
  else if c.is '\r' then "\\r"
  else if c.is '\t' then "\\t"
  else if c.isPrintable then [c]
  else if c.toNat < 0x100 then "\\x" ++ Text.ofHex 2 c.toNat
  else if c.toNat < 0x10000 then "\\u" ++ Text.ofHex 4 c.toNat
  else "\\U" ++ Text.ofHex 8 c.toNat

namespace Text

/-- The mark that encloses a text with the fewest escapes, apostrophes first. -/
def enclosingMark (t : Text) : Char :=
  if t.contains (.scalar '\'') && !t.contains (.scalar '"') then '"' else '\''

/-- A text as it is shown inside a message. -/
def quoted (t : Text) : Text :=
  let mark := enclosingMark t
  .scalar mark :: t.flatMap (CodePoint.quoted mark) ++ [.scalar mark]

end Text

/-- A code point as it is shown inside a message. -/
def CodePoint.shown (c : CodePoint) : Text := Text.quoted [c]

end StyleBinding
