import StyleBinding.Text.CodePoint

/-!
# Brackets

The three kinds of brackets that group code.
-/

namespace StyleBinding

/-- A kind of bracket. -/
inductive Bracket where
  | round
  | square
  | curly
deriving DecidableEq

namespace Bracket

/-- The opening mark. -/
def opener : Bracket → Char
  | round => '('
  | square => '['
  | curly => '{'

/-- The closing mark. -/
def closer : Bracket → Char
  | round => ')'
  | square => ']'
  | curly => '}'

/-- The kind of bracket that a code point opens. -/
def ofOpener? (c : CodePoint) : Option Bracket :=
  [round, square, curly].find? fun b => c.is b.opener

/-- The kind of bracket that a code point closes. -/
def ofCloser? (c : CodePoint) : Option Bracket :=
  [round, square, curly].find? fun b => c.is b.closer

end Bracket

end StyleBinding
