import StyleBinding.CommandLine.Transform

/-!
# Inspecting a module

The command that shows what the pass finds in a module: its stylesheet imports,
the accessor that it would bind, and how class names and styles are written.
Code is shown on one line, fifty code points of it at most.
-/

namespace StyleBinding

namespace Inspection

/-- The most code points of a piece of code that are shown. -/
def shownLength : Nat := 50

/-- A piece of code on one line. -/
def shownCode (source : Text) (code : CodePiece) : Text :=
  let text : Text := match code with
    | .literal text => text
    | .source span => span.text source
  let line := Text.join " " text.words
  if shownLength < line.length then line.take shownLength ++ "..." else line

/-- Class names on the line of an element. -/
def shownClass (source : Text) : Option ClassValue → Text
  | none => "className=none"
  | some (.static []) => "className=empty"
  | some (.static tokens) =>
    "className=static[" ++ Text.join ", " (tokens.map Text.quoted) ++ "]"
  | some (.dynamic code) => "className=dynamic(" ++ shownCode source code ++ ")"

/-- A style on the line of an element. -/
def shownStyle (source : Text) : InlineStyle → Text
  | .absent => "style=none"
  | .expression code => "style=" ++ shownCode source code
  | .array _ elements => "style=array(" ++ shownCode source (.source elements) ++ ")"

/-- The line of a stylesheet import. -/
def stylesheetLine (s : SheetImport) : Text :=
  "  " ++ s.path ++ " -> " ++ s.name ++
    (if s.byAuthor then ("  (author binding, not merged)" : Text) else [])

/-- The line of the accessor. -/
def accessorLine : Option Accessor → Text
  | none => "Accessor: (none; module is left unchanged)"
  | some a => "Accessor: " ++ a.expression

/-- The line of an element that has class names or a style. -/
def elementLine? (source : Text) (e : Element) : Option Text :=
  (e.classify source).map fun c =>
    "  <" ++ e.name ++ "> line " ++ Text.ofNat (source.lineOf e.span.start) ++ "  " ++
      shownClass source c.classValue ++ "  " ++ shownStyle source c.style

/-- All lines about a document whose imports have been bound. -/
def lines (path : Text) (d : Document) (b : BoundImports) : List Text :=
  ["Module:   " ++ path.tidy.lastComponent,
    "Imports:  " ++ Text.ofNat d.imports.length,
    "Elements: " ++ Text.ofNat d.elements.length,
    [],
    "Stylesheets:"] ++
    b.stylesheets.map stylesheetLine ++
    [accessorLine b.accessor?, [], "Elements:"] ++
    d.elements.filterMap (elementLine? d.source)

end Inspection

/-- Shows what the pass finds in a module. -/
def inspectFile (a : Arguments) (mode path : Text) : Run Unit := do
  let source ← Run.readText path
  match Document.parse source with
  | .error (.syntaxError e) =>
    Run.printError ("Parse error: " ++ e.report source)
    Run.stop (.exit 1)
  | .error r => Run.fail (.refused r)
  | .ok d =>
    let settings ← Run.orRefuse .badExtension (a.settings mode)
    (Inspection.lines path d (d.boundImports settings)).forM Run.printLine

/-- Shows what the pass finds in the one module that arguments name. -/
def runInspect (a : Arguments) (mode : Text) : Run Unit :=
  match a.positional with
  | [] => Run.stop (.usage (.missingArgument "FILE"))
  | path :: more => do
    Run.requireFile "'FILE'" path
    if !more.isEmpty then Run.stop (.usage (.unexpectedArguments more))
    inspectFile a mode path

end StyleBinding
