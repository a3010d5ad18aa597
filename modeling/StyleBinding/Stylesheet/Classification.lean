import StyleBinding.Document.Basic
import StyleBinding.Expression.Shape
import StyleBinding.Stylesheet.Vocabulary

/-!
# Classification of elements

How the class names and the style of an element are written, as far as the text
of its attributes tells. Class names are static when they are a quoted text or
code that is one string; otherwise they are known only at run time. A style is
an array when its code is one array. The last attribute of a name counts, and
one without a value stands for `true`.
-/

namespace StyleBinding

/-- The class names of an element: words known in advance, or code. -/
inductive ClassValue where
  | static (tokens : List Text)
  | dynamic (expression : CodePiece)
deriving DecidableEq

/-- Whether a class value is known to name nothing. -/
def ClassValue.isEmpty : ClassValue → Bool
  | static tokens => tokens.isEmpty
  | dynamic _ => false

/-- The inline style of an element. An array tells where its elements are, blanks
around them left out. -/
inductive InlineStyle where
  | absent
  | expression (code : CodePiece)
  | array (code elements : Span)
deriving DecidableEq

namespace InlineStyle

/-- The code of a style. -/
def code? : InlineStyle → Option CodePiece
  | absent => none
  | expression code => some code
  | array code _ => some (.source code)

/-- Where the elements of an array are. -/
def elements? : InlineStyle → Option Span
  | array _ elements => some elements
  | _ => none

end InlineStyle

/-- What is known of an element that has class names, a style, or both. -/
structure Classification where
  classValue : Option ClassValue
  style : InlineStyle
deriving DecidableEq

/-! ## Reading attributes -/

/-- The code that an attribute without a value stands for. -/
def impliedValue : CodePiece := .literal "true"

namespace Span

/-- A span without the blanks at both ends. -/
def strip (source : Text) (s : Span) : Span :=
  let start := s.start + Text.countWhile (·.isBlank) (s.text source)
  ⟨start, start + (Text.trim (s.text source)).length, Nat.le_add_right ..⟩

end Span

/-- The class value of an attribute. -/
def Attribute.classValue (source : Text) (a : Attribute) : ClassValue :=
  match a.value with
  | none => .dynamic impliedValue
  | some (.quoted span) => .static (Text.words ((span.text source).drop 1).dropLast)
  | some (.element span) => .dynamic (.source span)
  | some (.container _ inner) =>
    match (Shape.parse (inner.text source)).bind (·.staticText?) with
    | some text => .static text.words
    | none => .dynamic (.source inner)

/-- The inline style of an attribute. -/
def Attribute.inlineStyle (source : Text) (a : Attribute) : InlineStyle :=
  match a.value with
  | none => .expression impliedValue
  | some (.quoted span) => .expression (.source span)
  | some (.element span) => .expression (.source span)
  | some (.container _ inner) =>
    match (Shape.parse (inner.text source)).bind (·.arrayInner?) with
    | some elements => .array inner ((elements.shift inner.start).strip source)
    | none => .expression (.source inner)

/-- The classification of an element, if it has class names or a style. -/
def Element.classify (source : Text) (e : Element) : Option Classification :=
  match e.attribute? Vocabulary.classAttribute, e.attribute? Vocabulary.styleAttribute with
  | none, none => none
  | classes, style =>
    some
      { classValue := classes.map (·.classValue source)
        style := (style.map (·.inlineStyle source)).getD .absent }

end StyleBinding
