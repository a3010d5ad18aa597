import StyleBinding.Document.Basic

/-!
# Changing documents

The changes that can be made to a document one at a time: to the attributes of
an element, to the name an import is given, and to the prelude. What was read
stays beside what has changed.
-/

namespace StyleBinding

namespace Element

/-- An element with the attributes it was read with. -/
def reset (e : Element) : Element := { e with attributes := e.parsed }

/-- An element without one of its attributes. -/
def drop (e : Element) (index : Nat) : Element :=
  { e with attributes := e.attributes.eraseIdx index }

/-- An element with one of its attributes under another name. -/
def rename (e : Element) (index : Nat) (name : Option Text) : Element :=
  { e with attributes := e.attributes.modify index fun a => { a with name } }

/-- An element with one more attribute in front of one of its attributes, or at
the end. -/
def insert (e : Element) (index : Nat) (a : Attribute) : Element :=
  { e with attributes := e.attributes.take index ++ a :: e.attributes.drop index }

/-- An element with two of its attributes in each other's place. -/
def swap (e : Element) (i j : Nat) : Element :=
  match e.attributes[i]?, e.attributes[j]? with
  | some a, some b => { e with attributes := (e.attributes.set i b).set j a }
  | _, _ => e

end Element

namespace Document

/-- A document with one of its elements changed. -/
def modifyElement (d : Document) (index : Nat) (f : Element → Element) : Document :=
  { d with elements := d.elements.modify index f }

/-- A document with a name given to one of its imports. -/
def giveName (d : Document) (index : Nat) (name : Option Text) : Document :=
  { d with imports := d.imports.modify index fun i => { i with binding := name } }

/-- A document with other statements behind its imports. -/
def withPrelude (d : Document) (statements : List Text) : Document :=
  { d with prelude := statements }

end Document

end StyleBinding
