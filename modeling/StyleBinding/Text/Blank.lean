import StyleBinding.Text.Ranges

/-!
# Blanks

The white space that separates words: the White_Space property of Unicode,
with the four information separators U+001C to U+001F added.
-/

namespace StyleBinding

/-- The blank code points. -/
def blankRanges : List (Nat × Nat) :=
  [(0x9, 0xD), (0x1C, 0x20), (0x85, 0x85), (0xA0, 0xA0), (0x1680, 0x1680),
   (0x2000, 0x200A), (0x2028, 0x2029), (0x202F, 0x202F), (0x205F, 0x205F),
   (0x3000, 0x3000)]

/-- Whether a code point separates words. -/
def CodePoint.isBlank (c : CodePoint) : Bool := inRanges blankRanges c.toNat

end StyleBinding
