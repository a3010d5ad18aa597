import StyleBinding.Stylesheet.Vocabulary
import StyleBinding.Text.Path

/-!
# Names of generated bindings

A stylesheet import is bound to a name made of the words of its file name, in
camel case. When the name is taken, the least number from two on that makes it
free is put behind it.
-/

namespace StyleBinding

namespace Text

/-! ## Words of letters and digits -/

/-- The pieces between code points that are no ASCII letters or digits, the empty
ones included. -/
def asciiPieces : Text → List Text
  | [] => [[]]
  | c :: rest =>
    if c.isIn Char.isAlphanum then
      match asciiPieces rest with
      | [] => [[c]]
      | piece :: more => (c :: piece) :: more
    else [] :: asciiPieces rest

/-- The maximal runs of ASCII letters and digits. -/
def asciiWords (t : Text) : List Text := (asciiPieces t).filter (!·.isEmpty)

/-- A code point changed by a function on characters. -/
def mapPoint (f : Char → Char) : CodePoint → CodePoint
  | .scalar x => .scalar (f x)
  | c => c

/-- A text with its first code point changed by a function on characters. -/
def mapFirst (f : Char → Char) : Text → Text
  | [] => []
  | c :: rest => mapPoint f c :: rest

/-- Words run together: the first begins with a small letter, the others with a
capital. -/
def camelCase : List Text → Text
  | [] => []
  | first :: rest => mapFirst Char.toLower first ++ rest.flatMap (mapFirst Char.toUpper)

end Text

/-! ## Binding names -/

/-- The name of a stylesheet import by its path. A name that would begin with a
digit begins with an underscore instead. -/
def generatedName (path : Text) : Text :=
  match path.withoutQuery.stem.asciiWords with
  | [] => Text.mapFirst Char.toLower Vocabulary.bindingEnding
  | words =>
    let name := Text.camelCase words
    let start : Text :=
      match name with
      | c :: _ => if c.isIn Char.isDigit then "_" else []
      | [] => []
    start ++ name ++ Vocabulary.bindingEnding

/-- A name and then the same with the numbers from two on behind it, one more than
there are names taken. -/
def candidates (name : Text) (taken : List Text) : List Text :=
  name :: (List.range' 2 taken.length).map fun k => name ++ Text.ofNat k

/-- The first candidate that is not taken. -/
def freeName (name : Text) (taken : List Text) : Text :=
  ((candidates name taken).find? fun n => !taken.contains n).getD name

end StyleBinding
