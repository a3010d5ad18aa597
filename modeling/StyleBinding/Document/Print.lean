import StyleBinding.Document.Basic

/-!
# Printing documents

A document prints as its source with edits applied. An edit replaces a region:
the gap of an import that was given a name, the attributes of an element whose
attributes changed, or the empty region where the prelude goes. Attributes copy
stretches of the source, and each copy is printed with the edits inside it, so a
replacement shows nested elements in their current state.

Within a stretch, edits are taken by their start and the longer ones first; one
that starts inside an edit already taken, or ends beyond the stretch, is left to
whoever prints that stretch. An empty region at the very end of a stretch is
left out unless the source ends there too.
-/

namespace StyleBinding

/-- Why a document cannot be printed. -/
inductive PrintError where
  /-- An attribute has neither source text nor code. -/
  | unwritten (name : Option Text)
  /-- The name of an attribute is longer than the attribute. -/
  | reversed (bounds : ReversedBounds)
  /-- A replacement contains its own region. -/
  | endless
deriving DecidableEq

/-- The wording of a print error. -/
def PrintError.message : PrintError → Text
  | unwritten name =>
    "Attribute " ++ (name.map Text.quoted).getD "None" ++ " has neither source text nor code"
  | reversed bounds => bounds.message
  | endless => "Attribute code contains its own element"

/-- What is printed in place of a region. -/
inductive Replacement where
  | literal (text : Text)
  | attributes (list : List Attribute)

/-- A region of the source and what is printed in its place. -/
structure Edit where
  region : Span
  replacement : Replacement

/-! ## The edits of a document -/

namespace Edit

/-- Whether an edit is taken before another: it starts earlier, or it starts at
the same offset and reaches further. -/
def before (e f : Edit) : Bool :=
  e.region.start < f.region.start ||
    (e.region.start == f.region.start && f.region.stop < e.region.stop)

/-- Puts an edit in front of a sorted list, behind those taken before it. -/
def insert (e : Edit) : List Edit → List Edit
  | [] => [e]
  | f :: rest => if f.before e then f :: insert e rest else e :: f :: rest

/-- Sorts edits; those that neither is before the other keep their order. -/
def sort (edits : List Edit) : List Edit := edits.foldr insert []

end Edit

/-- The edit of an import that was given a name. -/
def ImportDeclaration.edit? (d : ImportDeclaration) : Option Edit :=
  d.givenName.map fun name => ⟨d.gap, .literal (" " ++ name ++ " from ")⟩

/-- The edit of an element whose attributes changed. -/
def Element.edit? (e : Element) : Option Edit :=
  if e.isChanged then some ⟨e.region, .attributes e.attributes⟩ else none

namespace Document

/-- The statements of the prelude, with the blank lines that set them apart. -/
def preludeText (d : Document) : Text :=
  let body := Text.join "\n\n" d.prelude
  if d.preludePoint = 0 then body ++ "\n\n" else "\n\n" ++ body

/-- The edit that inserts the prelude. -/
def preludeEdit? (d : Document) : Option Edit :=
  if d.prelude.isEmpty then none
  else some ⟨.point d.preludePoint, .literal d.preludeText⟩

/-- The edits of a document in the order in which they are taken. -/
def edits (d : Document) : List Edit :=
  Edit.sort (d.imports.filterMap (·.edit?) ++ d.elements.filterMap (·.edit?) ++
    d.preludeEdit?.toList)

end Document

/-! ## Applying edits -/

namespace Edit

/-- Whether an edit is left out of a stretch that is printed up to `cursor`. -/
def isSkipped (source : Text) (stretch : Span) (cursor : Nat) (e : Edit) : Bool :=
  e.region.start < cursor || stretch.stop < e.region.stop ||
    (e.region.start == stretch.stop && stretch.stop != source.length)

/-- Prints a stretch from `cursor` on, with `produce` for the replacements. -/
def apply (source : Text) (produce : Replacement → Except PrintError Text) (stretch : Span) :
    List Edit → Nat → Except PrintError Text
  | [], cursor => .ok (source.slice cursor stretch.stop)
  | e :: rest, cursor =>
    if e.isSkipped source stretch cursor then apply source produce stretch rest cursor
    else
      match produce e.replacement with
      | .error f => .error f
      | .ok text =>
        match apply source produce stretch rest e.region.stop with
        | .error f => .error f
        | .ok tail => .ok (source.slice cursor e.region.start ++ text ++ tail)

end Edit

/-- Texts printed one after another, or the first failure. -/
def printAll {α : Type} (print : α → Except PrintError Text) : List α → Except PrintError Text
  | [] => .ok []
  | a :: rest =>
    match print a with
    | .error e => .error e
    | .ok text =>
      match printAll print rest with
      | .error e => .error e
      | .ok tail => .ok (text ++ tail)

/-- Prints a fragment, with `stretch` for stretches of the source. -/
def CodePiece.print (stretch : Span → Except PrintError Text) : CodePiece → Except PrintError Text
  | .literal text => .ok text
  | .source span => stretch span

/-- Prints an attribute, with `stretch` for stretches of the source. A renamed
attribute is its new name and what follows the old one. -/
def Attribute.print (stretch : Span → Except PrintError Text) (a : Attribute) :
    Except PrintError Text :=
  match a.origin with
  | .generated code =>
    (printAll (CodePiece.print stretch) code).map fun value =>
      a.name.getD "None" ++ "=\x7b" ++ value ++ "\x7d"
  | .unwritten => .error (.unwritten a.name)
  | .written span sourceName _ =>
    match a.name with
    | some name =>
      if sourceName = some name then stretch span
      else
        match Span.ofBounds (span.start + (sourceName.getD []).length) span.stop with
        | .error bounds => .error (.reversed bounds)
        | .ok rest => (stretch rest).map fun value => name ++ value
    | none => stretch span

/-- Prints a replacement; every attribute comes with a space in front. -/
def Replacement.print (stretch : Span → Except PrintError Text) :
    Replacement → Except PrintError Text
  | .literal text => .ok text
  | .attributes list =>
    printAll (fun a => (a.print stretch).map fun text => .scalar ' ' :: text) list

namespace Document

/-- Prints a stretch of the source in which replacements nest less than `depth`
deep. -/
def printWithin (source : Text) (edits : List Edit) : Nat → Span → Except PrintError Text
  | 0, _ => .error .endless
  | depth + 1, stretch =>
    Edit.apply source (Replacement.print (printWithin source edits depth)) stretch edits
      stretch.start

/-- Prints a document. Replacements that nest deeper than there are edits would
nest for ever, for then one of them contains itself. -/
def print (d : Document) : Except PrintError Text :=
  printWithin d.source d.edits (d.edits.length + 1) ⟨0, d.source.length, Nat.zero_le _⟩

end Document

end StyleBinding
