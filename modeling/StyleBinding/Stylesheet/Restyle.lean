import StyleBinding.Stylesheet.StyleExpression

/-!
# Restyling elements

An element with class names gets a style attribute with the generated code in
place of its last style attribute, or behind its attributes when it has none.
Its class attributes are dropped, kept, or renamed for debugging, as the
settings say. Class names that name nothing are dropped and change
nothing else.
-/

namespace StyleBinding

/-- Whether an attribute has a name. -/
def Attribute.isNamed (name : Text) (a : Attribute) : Bool := a.name == some name

/-- What becomes of a class attribute whose names are resolved. -/
def Settings.classAttributes (settings : Settings) (a : Attribute) : List Attribute :=
  if settings.keepClasses then [a]
  else if settings.isDevelopment then [a.renamed Vocabulary.debugAttribute]
  else []

/-- Attributes with their class attributes treated one by one. -/
def mapClasses (f : Attribute → List Attribute) (attributes : List Attribute) :
    List Attribute :=
  attributes.flatMap fun a => if a.isNamed Vocabulary.classAttribute then f a else [a]

/-- Attributes with the last of a name replaced, or with one more at the end when
there is none. -/
def replaceLast (name : Text) (new : Attribute) : List Attribute → List Attribute
  | [] => [new]
  | a :: rest =>
    if rest.any (·.isNamed name) || !a.isNamed name then a :: replaceLast name new rest
    else new :: rest

/-- The attributes of an element with its class names resolved. -/
def Classification.resolve (c : Classification) (settings : Settings)
    (attributes : List Attribute) : List Attribute :=
  match c.classValue, c.styleExpression with
  | none, _ => attributes
  | some _, none => mapClasses (fun _ => []) attributes
  | some _, some code =>
    mapClasses settings.classAttributes
      (replaceLast Vocabulary.styleAttribute (.generate Vocabulary.styleAttribute code) attributes)

/-- An element with its class names resolved. -/
def Element.resolve (settings : Settings) (c : Classification) (e : Element) : Element :=
  { e with attributes := c.resolve settings e.attributes }

end StyleBinding
