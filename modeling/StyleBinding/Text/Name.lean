import StyleBinding.Text.Letter
import StyleBinding.Text.Numeral

/-!
# Code points of names

Identifiers are runs of letters, numerals, underscores and dollar signs of any
script. The names of elements and attributes start with an ASCII letter, an
underscore or a dollar sign, and go on with hyphens too.
-/

namespace StyleBinding.CodePoint

/-- Whether a code point belongs to a word: a letter, a numeral or an underscore. -/
def isWord (c : CodePoint) : Bool := c.isLetter || c.isNumeral || c.is '_'

/-- Whether a code point can stand in an identifier. -/
def isName (c : CodePoint) : Bool := c.isWord || c.is '$'

/-- Whether a code point can start the name of an element or attribute. -/
def isTagStart (c : CodePoint) : Bool := c.isIn fun x => x.isAlpha || x == '_' || x == '$'

/-- Whether a code point can go on with the name of an element or attribute. -/
def isTag (c : CodePoint) : Bool := c.isName || c.is '-'

end StyleBinding.CodePoint
