import StyleBinding.Document.Parse
import StyleBinding.Document.Print
import StyleBinding.Stylesheet.Restyle

/-!
# The pass

A document whose imports load a stylesheet to be bound has those imports bound,
its elements restyled in order, and the statements that the new code relies on
put behind its imports. Any other document stays as it is. The pass reports what
it does.
-/

namespace StyleBinding

/-! ## Reports -/

/-- How much a report matters. -/
inductive Level where
  | debug
  | info
deriving DecidableEq

/-- The name of a level. -/
def Level.name : Level → String
  | debug => "DEBUG"
  | info => "INFO"

/-- Something that the pass reports. -/
inductive Event where
  | nothingToBind
  | bound (stylesheet : SheetImport)
  | restyled (element : Text) (offset : Nat)
  | finished (bindings elements : Nat) (helpers : Helpers)
deriving DecidableEq

namespace Event

/-- How much an event matters. -/
def level : Event → Level
  | nothingToBind => .info
  | bound _ => .debug
  | restyled _ _ => .debug
  | finished _ _ _ => .info

/-- The word for a truth value in a report. -/
def yesOrNo (b : Bool) : Text := if b then "True" else "False"

/-- The wording of an event. -/
def message : Event → Text
  | nothingToBind => "No stylesheet import to bind; module left unchanged"
  | bound s =>
    "Stylesheet import " ++ s.path ++ " bound as " ++ s.name ++
      (if s.byAuthor then (" (author binding)" : Text) else [])
  | restyled element offset => "Rewrote <" ++ element ++ "> at offset " ++ Text.ofNat offset
  | finished bindings elements helpers =>
    "Bound " ++ Text.ofNat bindings ++ " stylesheet(s), rewrote " ++ Text.ofNat elements ++
      " element(s), helpers: merge=" ++ yesOrNo helpers.merge ++ " getStyle=" ++
      yesOrNo helpers.getStyle

end Event

/-! ## Elements -/

namespace Element

/-- An element with the class names resolved that it has. -/
def restyle (source : Text) (settings : Settings) (e : Element) : Element :=
  match e.classify source with
  | none => e
  | some c => e.resolve settings c

/-- The helpers needed once an element is restyled as well. -/
def helpers (source : Text) (h : Helpers) (e : Element) : Helpers :=
  match e.classify source with
  | none => h
  | some c => c.helpers h

/-- The report on an element: whether, having class names or a style, it is
different from what was read. -/
def report? (source : Text) (settings : Settings) (e : Element) : Option Event :=
  if (e.classify source).isSome && (e.restyle source settings).isChanged then
    some (.restyled e.name e.span.start)
  else none

end Element

/-! ## Documents -/

namespace Document

/-- The helpers that a document needs once it is restyled under an accessor. -/
def helpers (a : Accessor) (d : Document) : Helpers :=
  d.elements.foldl (Element.helpers d.source) { merge := a.needsMerge }

/-- A document with its elements restyled under an accessor and the statements
put in. -/
def restyleUnder (settings : Settings) (a : Accessor) (d : Document) : Document :=
  { d with
    elements := d.elements.map (·.restyle d.source settings)
    prelude := preludeStatements a (d.helpers a) }

/-- The pass over a document. -/
def transform (settings : Settings) (d : Document) : Document :=
  match (d.boundImports settings).accessor? with
  | none => d
  | some a => (d.bindImports settings).restyleUnder settings a

/-- Passes over a document, one after another. -/
def transformAll (passes : List Settings) (d : Document) : Document :=
  passes.foldl (fun d settings => d.transform settings) d

/-- What the pass over a document reports. -/
def report (settings : Settings) (d : Document) : List Event :=
  let b := d.boundImports settings
  match b.accessor? with
  | none => [.nothingToBind]
  | some a =>
    let restyled := d.elements.filterMap (·.report? d.source settings)
    b.stylesheets.map .bound ++ restyled ++
      [.finished a.bindings.length restyled.length (d.helpers a)]

end Document

/-! ## Sources -/

/-- Why a source has no transform. -/
inductive TransformError where
  | refused (r : Refusal)
  | unprintable (e : PrintError)
deriving DecidableEq

/-- The text of a module after the pass. -/
def transformText (settings : Settings) (source : Text) : Except TransformError Text :=
  match Document.parse source with
  | .error r => .error (.refused r)
  | .ok d =>
    match (d.transform settings).print with
    | .error e => .error (.unprintable e)
    | .ok text => .ok text

end StyleBinding
