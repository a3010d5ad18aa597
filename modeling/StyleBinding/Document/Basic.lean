import StyleBinding.Document.Element
import StyleBinding.Import.Declaration

/-!
# Documents

A document is the source text of a module with the two things in it that a pass
may change: its import declarations and its elements, each in the order of
their first code points. Everything else stays text.
-/

namespace StyleBinding

/-- A module and what was found in it. `prelude` holds the statements to be
inserted behind the imports. -/
structure Document where
  source : Text
  imports : List ImportDeclaration := []
  elements : List Element := []
  prelude : List Text := []
deriving DecidableEq

namespace Document

/-- The names bound by the imports of a document. -/
def importedNames (d : Document) : List Text := d.imports.flatMap (·.boundNames)

/-- Where inserted statements go: behind the last import, and behind the rest of
its line too when that holds nothing but blanks or a line comment. -/
def preludePoint (d : Document) : Nat :=
  match d.imports.getLast? with
  | none => 0
  | some last =>
    let stop := last.span.stop
    let line := (d.source.drop stop).takeWhile (!·.is '\n')
    let rest := Text.trim line
    if rest.isEmpty || Text.startsWith rest "//" then stop + line.length else stop

end Document

end StyleBinding
