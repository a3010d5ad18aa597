import StyleBinding.Source.Span

/-!
# Elements and attributes

An element keeps the attributes it was read with beside the ones it has now, so
that a printer knows which elements to write anew. An attribute read from the
source points at its text there; a generated one carries its value as code,
pieced together from literal text and stretches of the source.
-/

namespace StyleBinding

/-- A piece of code: literal text, or a stretch of the source that is printed in
its current state. -/
inductive CodePiece where
  | literal (text : Text)
  | source (span : Span)
deriving DecidableEq

/-- The right-hand side of an attribute: a quoted text, code between braces, or
an element. -/
inductive AttributeValue where
  | quoted (span : Span)
  | container (span inner : Span)
  | element (span : Span)
deriving DecidableEq

namespace AttributeValue

/-- The whole value, quotes or braces included. -/
def span : AttributeValue → Span
  | quoted s => s
  | container s _ => s
  | element s => s

/-- The value as an expression: what stands between the braces, or the whole. -/
def code : AttributeValue → Span
  | quoted s => s
  | container _ inner => inner
  | element s => s

end AttributeValue

/-- Where an attribute's text comes from: the source, where it has a span and
the name it has there, generated code, or nowhere. -/
inductive Attribute.Origin where
  | written (span : Span) (name : Option Text) (value : Option AttributeValue)
  | generated (code : List CodePiece)
  | unwritten
deriving DecidableEq

/-- An attribute of an element. One without a name is a spread. -/
structure Attribute where
  name : Option Text
  origin : Attribute.Origin
deriving DecidableEq

namespace Attribute

/-- An attribute with generated code for its value. -/
def generate (name : Text) (code : List CodePiece) : Attribute := ⟨some name, .generated code⟩

/-- The same attribute under another name. -/
def renamed (a : Attribute) (name : Text) : Attribute := { a with name := some name }

/-- The value that an attribute was read with. -/
def value (a : Attribute) : Option AttributeValue :=
  match a.origin with
  | .written _ _ value => value
  | _ => none

/-- The name that an attribute has in the source. -/
def sourceName (a : Attribute) : Option Text :=
  match a.origin with
  | .written _ name _ => name
  | _ => none

end Attribute

/-- An element or, when its name is empty, a fragment. `region` reaches from the
end of its name to the end of its last attribute in the source. -/
structure Element where
  name : Text
  span : Span
  region : Span
  selfClosing : Bool := false
  parsed : List Attribute := []
  attributes : List Attribute := parsed
deriving DecidableEq

namespace Element

/-- Whether the element is a fragment. -/
def isFragment (e : Element) : Bool := e.name.isEmpty

/-- Whether the attributes differ from those in the source. -/
def isChanged (e : Element) : Bool := e.attributes != e.parsed

/-- The last attribute of a name, which is the one that takes effect. -/
def attribute? (e : Element) (name : Text) : Option Attribute :=
  e.attributes.reverse.find? fun a => a.name == some name

end Element

end StyleBinding
