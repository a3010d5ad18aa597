import StyleBinding.Source.Literal
import StyleBinding.Stylesheet.Binding
import StyleBinding.Stylesheet.Classification

/-!
# Generated code

The expression that takes the place of class names, and the statements that it
relies on. Every static class is looked up in the stylesheet by a literal;
dynamic class names go through a helper. An inline style comes after the
entries of the classes, so that it wins: a style array is extended at its
front, and any other style is assigned over the entries.
-/

namespace StyleBinding

/-- The helpers that a module needs. -/
structure Helpers where
  merge : Bool := false
  getStyle : Bool := false
deriving DecidableEq

/-! ## Entries of classes -/

/-- The expression that looks a class up. -/
def lookupCode (name : Text) : Text :=
  Vocabulary.styleSheetName ++ "[" ++ Literal.encode name ++ "]"

/-- The expression that resolves class names at run time. -/
def resolutionCode (expression : CodePiece) : List CodePiece :=
  [.literal (Vocabulary.getStyleName ++ "("), expression, .literal ")"]

namespace ClassValue

/-- The entries that class names contribute to a style, one after another. -/
def entries : ClassValue → List (List CodePiece)
  | static tokens => tokens.map fun token => [.literal (lookupCode token)]
  | dynamic expression => [resolutionCode expression]

/-- Whether the entries call the helper that resolves class values. -/
def needsGetStyle : ClassValue → Bool
  | static _ => false
  | dynamic _ => true

end ClassValue

/-! ## Style expressions -/

/-- Expressions with commas between them. -/
def commaSeparated (items : List (List CodePiece)) : List CodePiece :=
  List.intercalate [.literal ", "] items

/-- Expressions between an opening and a closing text. -/
def enclosed (opening : Text) (items : List (List CodePiece)) (closing : Text) : List CodePiece :=
  .literal opening :: commaSeparated items ++ [.literal closing]

/-- An array of expressions. -/
def arrayCode (items : List (List CodePiece)) : List CodePiece := enclosed "[" items "]"

/-- An object to which expressions are assigned in order. -/
def assignCode (items : List (List CodePiece)) : List CodePiece :=
  enclosed "Object.assign(" ([.literal "\x7b\x7d"] :: items) ")"

/-- The style expression of class names with an inline style. -/
def ClassValue.styleExpression (value : ClassValue) : InlineStyle → List CodePiece
  | .array _ elements =>
    arrayCode (value.entries ++ if elements.isEmpty then [] else [[.source elements]])
  | .expression code => assignCode (value.entries ++ [[code]])
  | .absent =>
    match value.entries with
    | [entry] => entry
    | entries => assignCode entries

namespace Classification

/-- The class names of an element, unless it has none to resolve. -/
def resolvable (c : Classification) : Option ClassValue := c.classValue.filter (!·.isEmpty)

/-- The style expression of an element that has class names to resolve. -/
def styleExpression (c : Classification) : Option (List CodePiece) :=
  c.resolvable.map (·.styleExpression c.style)

/-- The helpers needed once the style expression is in the module as well. -/
def helpers (c : Classification) (h : Helpers) : Helpers :=
  { h with getStyle := h.getStyle || c.resolvable.any (·.needsGetStyle) }

end Classification

/-! ## Statements -/

/-- The statements that declare the resolved stylesheet and the helpers. -/
def preludeStatements (a : Accessor) (h : Helpers) : List Text :=
  (if h.merge then [Vocabulary.mergeHelper] else []) ++
    (if h.getStyle then [Vocabulary.getStyleHelper] else []) ++
    [Vocabulary.declaration a.expression]

end StyleBinding
