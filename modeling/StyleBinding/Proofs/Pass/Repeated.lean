import Mathlib.Data.List.Induction
import StyleBinding.Proofs.Pass.Statements

/-!
# Passes one after another

Every pass that binds a stylesheet puts its own statements behind the imports, in
place of those of the passes before it, while the code that those have generated
stays. The last pass brings the helper for class values if and only if it still
finds a dynamic element, so the calls of earlier passes go without the helper as
soon as one of them has dropped the class attributes.
-/

namespace StyleBinding

open Vocabulary

namespace Document

/-- Whether some element of a document is dynamic. -/
def isDynamic (d : Document) : Bool := d.elements.any (·.isDynamic d.source)

/-- Whether a pass over a document finds a stylesheet to bind. -/
def binds (d : Document) (settings : Settings) : Bool := d.imports.any (·.isBindable settings)

theorem transformAll_concat (d : Document) (passes : List Settings) (settings : Settings) :
    d.transformAll (passes ++ [settings]) = (d.transformAll passes).transform settings :=
  List.foldl_concat ..

section Binds

variable {d : Document} {settings : Settings}

theorem binds_eq_false_iff :
    d.binds settings = false ↔ (d.boundImports settings).accessor? = none := by
  rw [accessor?_eq_none_iff, binds, List.any_eq_false]
  simp only [Bool.not_eq_true]

/-- What a pass finds to bind does not depend on names given by another one. -/
theorem binds_transform (d : Document) (settings other : Settings) :
    (d.transform settings).binds other = d.binds other := by
  have ofUnbound (imports : List ImportDeclaration) :
      imports.any (·.isBindable other) = (imports.map (·.unbound)).any (·.isBindable other) := by
    rw [List.any_map]
    rfl
  rw [binds, binds, ofUnbound, ofUnbound d.imports, (transform_revises settings d).imports]

end Binds

/-! ## One pass -/

/-- What is left of a document that was read after passes over it. `bound` holds the
settings of those that have bound a stylesheet. -/
structure Passed (d : Document) (bound : List Settings) (after : Document) : Prop where
  source : after.source = d.source
  binds : ∀ settings, after.binds settings = d.binds settings
  settled : ∀ e ∈ after.elements, e.Settled d.source
  calls : after.callsGetStyle = (d.isDynamic && !bound.isEmpty)
  dynamic : after.isDynamic = (d.isDynamic && bound.all (·.keepClasses))
  helper : getStyleHelper ∈ after.prelude ↔
    bound ≠ [] ∧ d.isDynamic = true ∧ ∀ settings ∈ bound.dropLast, settings.keepClasses = true

theorem Laid.passed {d : Document} (h : d.Laid) : d.Passed [] d where
  source := rfl
  binds _ := rfl
  settled e member := (h.forest.laid e member).settled
  calls := by
    rw [List.isEmpty_nil, Bool.not_true, Bool.and_false]
    refine List.any_eq_false.2 fun e member => ?_
    rw [(h.forest.laid e member).not_callsGetStyle]
    exact Bool.false_ne_true
  dynamic := (Bool.and_true _).symm
  helper := by simp [h.noPrelude]

namespace Passed

variable {d after : Document} {bound : List Settings} {settings : Settings}

/-- A pass that binds nothing leaves everything as it is. -/
theorem idle (h : d.Passed bound after) (idles : d.binds settings = false) :
    d.Passed bound (after.transform settings) := by
  rw [transform_of_none (binds_eq_false_iff.1 ((h.binds settings).trans idles))]
  exact h

/-- A pass that binds a stylesheet adds the calls for the elements that are still
dynamic, and brings the helper if there are any. -/
theorem bind (h : d.Passed bound after) (binds : d.binds settings = true) :
    d.Passed (bound ++ [settings]) (after.transform settings) := by
  obtain ⟨a, found⟩ : ∃ a, (after.boundImports settings).accessor? = some a := by
    refine Option.ne_none_iff_exists'.1 fun none => ?_
    have idles := binds_eq_false_iff.2 none
    rw [h.binds, binds] at idles
    cases idles
  have elements := transform_elements found
  rw [h.source] at elements
  have dynamic : after.elements.any (·.isDynamic d.source) =
      (d.isDynamic && bound.all (·.keepClasses)) := by
    rw [← h.dynamic, isDynamic, h.source]
  constructor
  case source => rw [transform_source, h.source]
  case binds => exact fun other => (binds_transform after settings other).trans (h.binds other)
  case settled =>
    rw [elements]
    exact List.forall_mem_map.2 fun e member => (h.settled e member).restyle settings
  case calls =>
    have each : (after.transform settings).callsGetStyle =
        (after.callsGetStyle || after.elements.any (·.isDynamic d.source)) := by
      rw [Bool.eq_iff_iff, Bool.or_eq_true, callsGetStyle, callsGetStyle, elements, List.any_map]
      simp only [List.any_eq_true, Function.comp, ← exists_or, ← and_or_left]
      refine exists_congr fun e => and_congr_right fun member => ?_
      rw [(h.settled e member).callsGetStyle_restyle, Bool.or_eq_true]
    rw [each, dynamic, h.calls]
    cases d.isDynamic <;> cases bound <;> simp
  case dynamic =>
    rw [isDynamic, transform_source, h.source, elements, List.any_map]
    simp only [Function.comp_def, Element.isDynamic_restyle]
    rw [← List.and_any_distrib_right, dynamic, List.all_append, Bool.and_assoc]
    simp
  case helper =>
    rw [transform_prelude found, getStyleHelper_mem_preludeStatements, h.source, dynamic,
      List.dropLast_concat, Bool.and_eq_true, List.all_eq_true]
    simp

end Passed

/-! ## Any number of passes -/

/-- Passes over a document that was read leave what those of them that bind a
stylesheet leave. -/
theorem Laid.passed_transformAll {d : Document} (h : d.Laid) (passes : List Settings) :
    d.Passed (passes.filter d.binds) (d.transformAll passes) := by
  induction passes using List.reverseRecOn with
  | nil => exact h.passed
  | append_singleton passes settings ih =>
    rw [transformAll_concat, List.filter_append]
    cases binds : d.binds settings with
    | false =>
      rw [List.filter_cons_of_neg (by simp [binds]), List.filter_nil, List.append_nil]
      exact ih.idle binds
    | true =>
      rw [List.filter_cons_of_pos binds, List.filter_nil]
      exact ih.bind binds

/-- After passes over a module, the helper for class values is there whenever code
calls it if and only if no element was dynamic or all passes that bind a stylesheet,
but for the last of them, keep the class attributes. -/
theorem transformAll_helper {source : Text} {d : Document} (read : parse source = .ok d)
    (passes : List Settings) :
    ((d.transformAll passes).callsGetStyle = true →
        getStyleHelper ∈ (d.transformAll passes).prelude) ↔
      (d.isDynamic = true →
        ∀ settings ∈ (passes.filter d.binds).dropLast, settings.keepClasses = true) := by
  have passed := (laid_of_parse read).passed_transformAll passes
  rw [passed.calls, passed.helper]
  cases passes.filter d.binds with
  | nil => simp
  | cons first rest => simp +contextual

/-- Class names known only at run time. -/
def calledSource : Text := "import './a.css';\n<b className=\x7bx\x7d/>;\n"

/-- Two passes, the first of which keeps class attributes. -/
def keepingPasses : List Settings := [⟨true, Settings.defaultExtensions, []⟩, .default []]

theorem transformAll_helper_kept :
    ∃ d, parse calledSource = .ok d ∧
      (d.transformAll keepingPasses).callsGetStyle = true ∧
      getStyleHelper ∈ (d.transformAll keepingPasses).prelude := by
  have calls : ((parse calledSource).toOption.any fun (d : Document) =>
      decide ((d.transformAll keepingPasses).callsGetStyle = true ∧
        ∀ settings ∈ (keepingPasses.filter d.binds).dropLast,
          settings.keepClasses = true)) = true := by
    decide +kernel
  obtain ⟨d, read, both⟩ := (Option.any_eq_true _ _).1 calls
  obtain ⟨calls, kept⟩ := of_decide_eq_true both
  have read := parse_of_toOption read
  exact ⟨d, read, calls, (transformAll_helper read keepingPasses).2 (fun _ => kept) calls⟩

/-- A second pass takes the helper out that the code of the first one calls. -/
theorem calledSource_helper_lost :
    ∃ d, parse calledSource = .ok d ∧
      (d.transformAll [.default [], .default []]).callsGetStyle = true ∧
      getStyleHelper ∉ (d.transformAll [.default [], .default []]).prelude := by
  have lost : ((parse calledSource).toOption.any fun (d : Document) =>
      decide ((d.transformAll [.default [], .default []]).callsGetStyle = true ∧
        getStyleHelper ∉ (d.transformAll [.default [], .default []]).prelude)) = true := by
    decide +kernel
  obtain ⟨d, read, both⟩ := (Option.any_eq_true _ _).1 lost
  exact ⟨d, parse_of_toOption read, of_decide_eq_true both⟩

end Document

end StyleBinding
