import StyleBinding.Text.Position
import StyleBinding.Text.Quoted

/-!
# Refusals

Why a source text cannot be read as a module. A syntax error has a cause and an
offset, from which its line and column follow. Two refusals are of another
kind: a digit that starts no number, and an escape in an import declaration
that names no code point.
-/

namespace StyleBinding

/-- What is wrong with the syntax of a module. -/
inductive SyntaxCause where
  | unterminatedComment
  | unterminatedString
  | unterminatedTemplate
  | expectedBeforeEnd (closer : Char)
  | unexpectedCloser (found : Char)
  | mismatchedCloser (expected found : Char)
  | unterminatedImport
  | expectedSpecifier
  | unexpectedInImport (found : CodePoint)
  | malformedImport
  | expectedElementName
  | unterminatedElement (name : Text)
  | unexpectedInElement (found : CodePoint)
  | unterminatedAttributeString
  | expectedAttributeValue
  | unterminatedClosingTag (name : Text)
  | mismatchedClosingTag (expected found : Text)
deriving DecidableEq

/-- The wording of a cause. -/
def SyntaxCause.message : SyntaxCause → Text
  | unterminatedComment => "Unterminated comment"
  | unterminatedString => "Unterminated string literal"
  | unterminatedTemplate => "Unterminated template literal"
  | expectedBeforeEnd closer =>
    "Expected " ++ (CodePoint.scalar closer).shown ++ " before end of input"
  | unexpectedCloser found => "Unexpected " ++ (CodePoint.scalar found).shown
  | mismatchedCloser expected found =>
    "Expected " ++ (CodePoint.scalar expected).shown ++ ", found " ++
      (CodePoint.scalar found).shown
  | unterminatedImport => "Unterminated import declaration"
  | expectedSpecifier => "Expected module specifier after 'from'"
  | unexpectedInImport found => "Unexpected " ++ found.shown ++ " in import declaration"
  | malformedImport => "Malformed import declaration"
  | expectedElementName => "Expected JSX element name"
  | unterminatedElement name => "Unterminated JSX element <" ++ name ++ ">"
  | unexpectedInElement found => "Unexpected " ++ found.shown ++ " in JSX element"
  | unterminatedAttributeString => "Unterminated JSX attribute string"
  | expectedAttributeValue => "Expected JSX attribute value"
  | unterminatedClosingTag name => "Unterminated closing tag for <" ++ name ++ ">"
  | mismatchedClosingTag expected found =>
    "Expected closing tag for <" ++ expected ++ ">, found </" ++ found ++ ">"

/-- A cause and the offset it is reported at. -/
structure SyntaxError where
  cause : SyntaxCause
  offset : Nat
deriving DecidableEq

namespace SyntaxError

/-- The line and column of an error in its source. -/
def position (e : SyntaxError) (source : Text) : Position := source.positionAt e.offset

/-- The wording of an error, with its line and column. -/
def report (e : SyntaxError) (source : Text) : Text :=
  let p := e.position source
  e.cause.message ++ " (line " ++ Text.ofNat p.line ++ ", column " ++ Text.ofNat p.column ++ ")"

end SyntaxError

/-- An escape that names a number beyond the last code point. -/
structure EscapeBeyondLimit where
  number : Nat
deriving DecidableEq

/-- Why a source text is not a module. -/
inductive Refusal where
  | syntaxError (e : SyntaxError)
  | strayDigit (offset : Nat)
  | escapeInImport (e : EscapeBeyondLimit)
deriving DecidableEq

/-- A syntax error at an offset. -/
def Refusal.at (cause : SyntaxCause) (offset : Nat) : Refusal := .syntaxError ⟨cause, offset⟩

end StyleBinding
