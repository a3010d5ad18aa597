import StyleBinding.Proofs.Pass.Called
import StyleBinding.Proofs.Pass.Printed

/-!
# The statements that the pass puts in

The statements behind the imports follow from the code that the pass generates.
The helper for class values is among them if and only if some element calls it,
which is so if and only if some element is dynamic; the helper that merges
stylesheets is among them if and only if there is more than one binding. The
declaration of the resolved stylesheet comes last.
-/

namespace StyleBinding

open Vocabulary

/-! ## Helpers -/

/-- An element is dynamic if it is classified so. -/
theorem Element.isDynamic_iff {source : Text} {e : Element} :
    e.isDynamic source = true ↔
      ∃ c x, e.classify source = some c ∧ c.classValue = some (.dynamic x) := by
  rw [isDynamic, Option.any_eq_true, classify_eq]
  constructor
  · rintro ⟨v, value, needs⟩
    cases v with
    | static tokens => cases needs
    | dynamic x => exact ⟨_, x, by rw [if_neg (by simp [value])], value⟩
  · rintro ⟨c, x, isClassified, value⟩
    split at isClassified
    · cases isClassified
    · cases isClassified
      exact ⟨_, value, rfl⟩

/-- An element that is restyled needs the helper for class values if it is dynamic. -/
theorem Element.helpers_eq (source : Text) (h : Helpers) (e : Element) :
    e.helpers source h = { h with getStyle := h.getStyle || e.isDynamic source } := by
  have resolvable (v : ClassValue) : (!v.isEmpty && v.needsGetStyle) = v.needsGetStyle := by
    cases v with
    | static tokens => exact Bool.and_false _
    | dynamic x => rfl
  rw [helpers, classify_eq, isDynamic]
  split
  · rename_i isNone
    split at isNone
    · rename_i none
      rw [none.1, Option.any_none, Bool.or_false]
    · cases isNone
  · rename_i c isSome
    split at isSome
    · cases isSome
    · cases isSome
      simp only [Classification.helpers, Classification.resolvable, Option.any_filter, resolvable]

/-- A document needs the helper for class values if some element is dynamic. -/
theorem Document.helpers_eq (a : Accessor) (d : Document) :
    d.helpers a =
      { merge := a.needsMerge, getStyle := d.elements.any (·.isDynamic d.source) } := by
  have each (h : Helpers) : d.elements.foldl (Element.helpers d.source) h =
      { h with getStyle := h.getStyle || d.elements.any (·.isDynamic d.source) } := by
    induction d.elements generalizing h with
    | nil => simp
    | cons e rest ih => rw [List.foldl_cons, ih, Element.helpers_eq, List.any_cons, Bool.or_assoc]
  rw [helpers, each, Bool.false_or]

/-! ## Statements -/

theorem mergeHelper_ne_getStyleHelper : mergeHelper ≠ getStyleHelper := by decide

/-- The declaration is no helper. -/
theorem declaration_not_mem_helpers (expression : Text) :
    declaration expression ∉ [mergeHelper, getStyleHelper] := by
  have helpers : ∀ h ∈ [mergeHelper, getStyleHelper], h.take 1 ≠ ("v" : Text) := by decide
  exact fun member => helpers _ member rfl

theorem mergeHelper_ne_declaration (expression : Text) : mergeHelper ≠ declaration expression :=
  fun same => declaration_not_mem_helpers expression (by simp [same])

theorem getStyleHelper_ne_declaration (expression : Text) :
    getStyleHelper ≠ declaration expression :=
  fun same => declaration_not_mem_helpers expression (by simp [same])

section Prelude

variable (a : Accessor) (h : Helpers)

/-- The statements are the helpers that are needed and the declaration, in a fixed
order. -/
theorem preludeStatements_sublist :
    (preludeStatements a h).Sublist [mergeHelper, getStyleHelper, declaration a.expression] := by
  obtain ⟨needsMerge, needsGetStyle⟩ := h
  cases needsMerge <;> cases needsGetStyle <;> simp [preludeStatements]

theorem preludeStatements_nodup : (preludeStatements a h).Nodup := by
  refine List.Nodup.sublist (preludeStatements_sublist a h) ?_
  simp [mergeHelper_ne_getStyleHelper, mergeHelper_ne_declaration, getStyleHelper_ne_declaration]

theorem preludeStatements_getLast? :
    (preludeStatements a h).getLast? = some (declaration a.expression) := by
  rw [preludeStatements, List.getLast?_append, List.getLast?_singleton, Option.some_or]

variable {a h}

theorem mem_preludeStatements {s : Text} :
    s ∈ preludeStatements a h ↔ h.merge = true ∧ s = mergeHelper ∨
      h.getStyle = true ∧ s = getStyleHelper ∨ s = declaration a.expression := by
  obtain ⟨needsMerge, needsGetStyle⟩ := h
  cases needsMerge <;> cases needsGetStyle <;> simp [preludeStatements]

theorem mergeHelper_mem_preludeStatements :
    mergeHelper ∈ preludeStatements a h ↔ h.merge = true := by
  rw [mem_preludeStatements]
  simp [mergeHelper_ne_getStyleHelper, mergeHelper_ne_declaration]

theorem getStyleHelper_mem_preludeStatements :
    getStyleHelper ∈ preludeStatements a h ↔ h.getStyle = true := by
  rw [mem_preludeStatements]
  simp [mergeHelper_ne_getStyleHelper.symm, getStyleHelper_ne_declaration]

end Prelude

/-! ## What the pass puts in -/

/-- Whether a document has generated code that calls the helper for class values. -/
def Document.callsGetStyle (d : Document) : Bool := d.elements.any (·.callsGetStyle)

/-- An accessor is its only binding, or a call that merges all of them. -/
theorem Accessor.expression_eq (a : Accessor) :
    a.expression =
      match a.bindings with
      | [name] => name
      | names => mergeName ++ "(" ++ Text.join ", " names ++ ")" := by
  obtain ⟨_ | ⟨name, _ | ⟨next, more⟩⟩, nonempty⟩ := a
  · contradiction
  · rfl
  · simp [expression, needsMerge]

namespace Document

variable {d : Document} {settings : Settings} {a : Accessor}

theorem transform_prelude (bound : (d.boundImports settings).accessor? = some a) :
    (d.transform settings).prelude = preludeStatements a
      { merge := a.needsMerge, getStyle := d.elements.any (·.isDynamic d.source) } := by
  rw [transform_of_accessor bound, ← helpers_eq]
  rfl

theorem transform_elements (bound : (d.boundImports settings).accessor? = some a) :
    (d.transform settings).elements = d.elements.map (·.restyle d.source settings) := by
  rw [transform_of_accessor bound]
  rfl

/-- After a pass with an accessor, a module calls the helper for class values if and
only if an element was dynamic. -/
theorem Laid.callsGetStyle_transform (h : d.Laid)
    (bound : (d.boundImports settings).accessor? = some a) :
    (d.transform settings).callsGetStyle = d.elements.any (·.isDynamic d.source) := by
  rw [callsGetStyle, transform_elements bound, List.any_map, Bool.eq_iff_iff, List.any_eq_true,
    List.any_eq_true]
  refine exists_congr fun e => and_congr_right fun member => ?_
  have laid := h.forest.laid e member
  rw [Function.comp, laid.settled.callsGetStyle_restyle, laid.not_callsGetStyle, Bool.false_or]

/-- The bindings of the accessor are the names that the pass has given. -/
theorem Laid.bindings_eq (h : d.Laid) (bound : (d.boundImports settings).accessor? = some a) :
    a.bindings = (d.transform settings).imports.filterMap (·.binding) := by
  rw [BoundImports.bindings_of_accessor? bound, transform_of_accessor bound]
  exact BoundImports.bindings_eq_filterMap fun i member => (h.declared.laid i member).unnamed

/-- What a pass with an accessor puts behind the imports: the helper for class values
if some element calls it, which is so if and only if some element was dynamic, the
helper that merges if there are two bindings, and the declaration. -/
structure Injects (settings : Settings) (a : Accessor) (d : Document) : Prop where
  getStyle : getStyleHelper ∈ (d.transform settings).prelude ↔
    (d.transform settings).callsGetStyle = true
  dynamic : (d.transform settings).callsGetStyle = true ↔
    ∃ e ∈ d.elements, ∃ c x, e.classify d.source = some c ∧ c.classValue = some (.dynamic x)
  merge : mergeHelper ∈ (d.transform settings).prelude ↔ 2 ≤ a.bindings.length
  once : (d.transform settings).prelude.Nodup
  ordered : (d.transform settings).prelude.Sublist
    [mergeHelper, getStyleHelper, declaration a.expression]
  last : (d.transform settings).prelude.getLast? = some (declaration a.expression)
  expression : a.expression =
    match a.bindings with
    | [name] => name
    | names => mergeName ++ "(" ++ Text.join ", " names ++ ")"
  bindings : a.bindings = (d.transform settings).imports.filterMap (·.binding)

/-- The helpers that a pass puts in are those that its code needs. -/
theorem transform_injects {source : Text} (read : parse source = .ok d)
    (bound : (d.boundImports settings).accessor? = some a) : d.Injects settings a := by
  have laid := laid_of_parse read
  have calls := laid.callsGetStyle_transform bound
  have prelude := transform_prelude bound
  constructor
  case getStyle => rw [prelude, getStyleHelper_mem_preludeStatements, calls]
  case dynamic =>
    rw [calls, List.any_eq_true]
    exact exists_congr fun e => and_congr_right fun _ => e.isDynamic_iff
  case merge =>
    rw [prelude, mergeHelper_mem_preludeStatements]
    exact decide_eq_true_iff
  case once => exact prelude ▸ preludeStatements_nodup a _
  case ordered => exact prelude ▸ preludeStatements_sublist a _
  case last => exact prelude ▸ preludeStatements_getLast? a _
  case expression => exact a.expression_eq
  case bindings => exact laid.bindings_eq bound

/-- Two stylesheets, a static element and a dynamic one inside of it. -/
def mergedSource : Text :=
  "import './a.css';\nimport './b.css';\n" ++
    "<A className='c' b=\x7b<i className=\x7by\x7d style=\x7b[x]\x7d/>\x7d/>;\n"

theorem transform_injects_merged :
    ∃ d a, parse mergedSource = .ok d ∧ (d.boundImports (.default [])).accessor? = some a ∧
      d.Injects (.default []) a := by
  have bound : ((parse mergedSource).toOption.bind fun d =>
      (d.boundImports (.default [])).accessor?).isSome = true := by decide +kernel
  obtain ⟨a, found⟩ := Option.isSome_iff_exists.1 bound
  obtain ⟨d, read, found⟩ := Option.bind_eq_some_iff.1 found
  have read := parse_of_toOption read
  exact ⟨d, a, read, found, transform_injects read found⟩

end Document

end StyleBinding
