import StyleBinding.Proofs.Pass.Printed

/-!
# Modules without a stylesheet to bind

The pass has something to do if and only if some import is bindable: it imports
more than types, binds nothing, and names a stylesheet. Any other module comes
out as it went in, whatever its elements look like. Of several imports of one
stylesheet the pass binds the first, so a module that has come out of it may still
have a bindable import.
-/

namespace StyleBinding

namespace Document

variable {d : Document} {settings : Settings}

/-- The pass leaves a module as it is if and only if no import is bindable. -/
theorem Laid.transform_eq_self_iff (h : d.Laid) :
    d.transform settings = d ↔ ∀ i ∈ d.imports, i.isBindable settings = false := by
  rw [← accessor?_eq_none_iff]
  cases bound : (d.boundImports settings).accessor? with
  | none => simp [transform_of_none bound]
  | some a =>
    refine ⟨fun same => ?_, fun none => by cases none⟩
    have none := congrArg Document.prelude same
    rw [transform_of_accessor bound, h.noPrelude] at none
    simp [restyleUnder, preludeStatements] at none

/-- A module prints as its source when nothing has been changed in it. -/
theorem Laid.print_eq_source (h : d.Laid) : d.print = .ok d.source := by
  rw [print_eq_splice (by simp [h.edits_eq_nil]), takenEdits, h.edits_eq_nil]
  exact congrArg _ d.source.slice_zero_length

/-- Without a bindable import, the pass changes nothing in a module and returns its
source. -/
theorem transformText_eq_source {source : Text} (read : parse source = .ok d)
    (unbindable : ∀ i ∈ d.imports, i.isBindable settings = false) :
    d.transform settings = d ∧ transformText settings source = .ok source := by
  have laid := laid_of_parse read
  have same : d.transform settings = d := laid.transform_eq_self_iff.2 unbindable
  refine ⟨same, ?_⟩
  rw [transformText, read]
  simp only [same, laid.print_eq_source, source_of_parse read]

/-- Class names and styles at two depths, with a stylesheet that the author has
bound and an import for its effects that names no stylesheet. -/
def styledSource : Text :=
  "import s from './a.css';\nimport './b.js';\n" ++
    "<A className='c' style=\x7b[x]\x7d b=\x7b<i className=\x7by\x7d/>\x7d/>;\n"

theorem transformText_eq_source_styled :
    ∃ d, parse styledSource = .ok d ∧
      (∀ i ∈ d.imports, i.isBindable (.default []) = false) ∧
      d.transform (.default []) = d ∧
      transformText (.default []) styledSource = .ok styledSource := by
  have clear : ((parse styledSource).toOption.any fun d =>
      d.imports.length = 2 ∧ d.elements.length = 2 ∧
        ∀ i ∈ d.imports, i.isBindable (.default []) = false) = true := by
    decide +kernel
  obtain ⟨d, read, clear⟩ := (Option.any_eq_true _ _).1 clear
  obtain ⟨_, _, unbindable⟩ := of_decide_eq_true clear
  have read := parse_of_toOption read
  exact ⟨d, read, unbindable, transformText_eq_source read unbindable⟩

/-- A stylesheet that is imported for its effects twice. -/
def repeatedSource : Text := "import './a.css';\nimport './a.css';\n"

/-- A second pass binds what the first has left alone. -/
theorem repeatedSource_not_stable :
    ∃ output, transformText (.default []) repeatedSource = .ok output ∧
      transformText (.default []) output ≠ .ok output := by
  have bad : ((transformText (.default []) repeatedSource).toOption.any fun output =>
      (transformText (.default []) output).toOption != some output) = true := by decide +kernel
  cases h : transformText (.default []) repeatedSource with
  | error e =>
    rw [h] at bad
    cases bad
  | ok output =>
    rw [h] at bad
    refine ⟨output, rfl, fun same => ?_⟩
    rw [Except.toOption, Option.any_some, same] at bad
    exact absurd bad (by simp [Except.toOption])

end Document

end StyleBinding
