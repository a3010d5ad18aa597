import Mathlib.Data.List.Basic
import StyleBinding.Proofs.Pass.Transformed

/-!
# Calls of the helper for class values

Class names that are known only at run time are resolved by a call in generated
code. Restyling an element puts such a call in if and only if the last class
attribute is dynamic, and takes none out that is there, as long as every element
with a call is dynamic or has no class names any more. What an element is after
restyling follows from what it was: it keeps its class value when classes are
kept, and has none otherwise.
-/

namespace StyleBinding

open Vocabulary

/-! ## What is left of class attributes -/

/-- Whether the class names of an element are known only at run time. -/
def Element.isDynamic (source : Text) (e : Element) : Bool :=
  (e.classValue? source).any (·.needsGetStyle)

theorem Element.attribute?_eq_getLast? (name : Text) (e : Element) :
    e.attribute? name = (e.attributes.filter (·.isNamed name)).getLast? := by
  rw [attribute?, List.getLast?_eq_head?_reverse, ← List.filter_reverse, List.head?_filter]
  rfl

/-- An attribute has one name at most. -/
theorem Attribute.not_isNamed_of_ne {name other : Text} (differ : name ≠ other) {a : Attribute}
    (named : a.isNamed name = true) : a.isNamed other = false := by
  rw [isNamed_iff] at named
  rw [isNamed, named]
  simpa using differ

/-- Replacing an attribute leaves those of other names as they are. -/
theorem filter_replaceLast {name other : Text} {new : Attribute} (differ : name ≠ other)
    (named : new.isNamed name = true) (attributes : List Attribute) :
    (replaceLast name new attributes).filter (·.isNamed other) =
      attributes.filter (·.isNamed other) := by
  have apart {a : Attribute} (h : a.isNamed name = true) : a.isNamed other = false :=
    Attribute.not_isNamed_of_ne differ h
  induction attributes with
  | nil => rw [replaceLast, List.filter_cons_of_neg (by simp [apart named]), List.filter_nil]
  | cons a rest ih =>
    rw [replaceLast]
    split
    · rw [List.filter_cons, List.filter_cons, ih]
    · rename_i isLast
      simp only [Bool.or_eq_true, Bool.not_eq_true', not_or, Bool.not_eq_false] at isLast
      rw [List.filter_cons_of_neg (by simp [apart named]),
        List.filter_cons_of_neg (by simp [apart isLast.2])]

theorem mapClasses_singleton (attributes : List Attribute) :
    mapClasses (fun a => [a]) attributes = attributes := by
  simp [mapClasses]

theorem Settings.classAttributes_of_keepClasses {settings : Settings}
    (keeps : settings.keepClasses = true) : settings.classAttributes = fun a => [a] := by
  funext a
  rw [classAttributes, if_pos keeps]

/-- No class attributes are left where each becomes something else. -/
theorem filter_mapClasses {f : Attribute → List Attribute}
    (other : ∀ a, ∀ b ∈ f a, b.isNamed classAttribute = false) (attributes : List Attribute) :
    (mapClasses f attributes).filter (·.isNamed classAttribute) = [] := by
  refine List.filter_eq_nil_iff.2 fun a member => ?_
  rcases mem_mapClasses member with ⟨_, noClass⟩ | ⟨c, _, _, isIn⟩
  · simp [noClass]
  · simp [other c a isIn]

theorem Settings.classAttributes_other {settings : Settings} (drops : settings.keepClasses = false)
    (a : Attribute) : ∀ b ∈ settings.classAttributes a, b.isNamed classAttribute = false := by
  intro b member
  rw [classAttributes, drops, if_neg Bool.false_ne_true] at member
  split at member
  · rw [List.mem_singleton.1 member]
    change (some debugAttribute == some classAttribute) = false
    decide
  · cases member

namespace Element

variable (source : Text) (settings : Settings) (e : Element)

/-- The class value of a restyled element: what it was when classes are kept and the
value names something. -/
theorem classValue?_restyle :
    (e.restyle source settings).classValue? source =
      (e.classValue? source).filter fun v => !v.isEmpty && settings.keepClasses := by
  have ofFilter {f : Element} (h : f.attributes.filter (·.isNamed classAttribute) = []) :
      f.classValue? source = none := by
    rw [classValue?, attribute?_eq_getLast?, h]
    rfl
  have attributes := e.restyle_attributes source settings
  cases value : e.classValue? source with
  | none =>
    simp only [value] at attributes
    rw [Option.filter_none, ← value, classValue?, classValue?, attribute?, attribute?, attributes]
  | some v =>
    simp only [value] at attributes
    rw [Option.filter_some]
    cases empty : v.isEmpty with
    | true =>
      rw [empty, if_pos rfl] at attributes
      exact ofFilter (attributes ▸ filter_mapClasses (by simp) _)
    | false =>
      rw [empty, if_neg Bool.false_ne_true] at attributes
      cases keeps : settings.keepClasses with
      | true =>
        rw [Settings.classAttributes_of_keepClasses keeps, mapClasses_singleton] at attributes
        rw [classValue?, attribute?_eq_getLast?, attributes,
          filter_replaceLast (by decide) (beq_self_eq_true _), ← attribute?_eq_getLast?]
        exact value
      | false =>
        exact ofFilter (attributes ▸ filter_mapClasses (Settings.classAttributes_other keeps) _)

/-- An element is dynamic after restyling if it was before and classes are kept. -/
theorem isDynamic_restyle :
    (e.restyle source settings).isDynamic source =
      (e.isDynamic source && settings.keepClasses) := by
  rw [isDynamic, isDynamic, classValue?_restyle, Option.any_filter]
  cases e.classValue? source with
  | none => rfl
  | some v => cases v <;> simp [ClassValue.isEmpty, ClassValue.needsGetStyle]

end Element

/-! ## Calls in generated code -/

/-- The text in front of a class value that is resolved at run time. -/
def getStyleCall : CodePiece := .literal (getStyleName ++ "(")

/-- Whether the generated code of an attribute calls the helper for class values. -/
def Attribute.callsGetStyle (a : Attribute) : Bool :=
  match a.origin with
  | .generated code => code.contains getStyleCall
  | _ => false

/-- Whether an element has generated code that calls the helper for class values. -/
def Element.callsGetStyle (e : Element) : Bool := e.attributes.any (·.callsGetStyle)

theorem Attribute.Laid.not_callsGetStyle {a : Attribute} {s : Span} (h : a.Laid s) :
    a.callsGetStyle = false := by
  cases h <;> rfl

/-- The code that looks a class up is not the beginning of a call. -/
theorem lookupCode_ne (name : Text) : CodePiece.literal (lookupCode name) ≠ getStyleCall := by
  intro same
  have start : (lookupCode name).take 2 = ("_s" : Text) := rfl
  rw [CodePiece.literal.inj same] at start
  exact absurd start (by decide)

/-- The entries of class names hold a call if and only if the names are dynamic. -/
theorem ClassValue.getStyleCall_mem_entries {v : ClassValue} :
    (∃ entry ∈ v.entries, getStyleCall ∈ entry) ↔ v.needsGetStyle = true := by
  cases v with
  | static tokens =>
    refine ⟨fun ⟨entry, member, isIn⟩ => ?_, nofun⟩
    obtain ⟨token, _, rfl⟩ := List.mem_map.1 member
    exact absurd (List.mem_singleton.1 isIn).symm (lookupCode_ne token)
  | dynamic x => exact ⟨fun _ => rfl, fun _ => ⟨_, List.mem_singleton_self _, List.mem_cons_self⟩⟩

/-- The inline style of an attribute is copied from the source or `true`. -/
theorem Attribute.inlineStyle_piece?_ne (source : Text) (a : Attribute) :
    (a.inlineStyle source).piece? ≠ some getStyleCall := by
  unfold Attribute.inlineStyle
  split
  · decide
  · exact nofun
  · exact nofun
  · split <;> exact nofun

theorem Element.inlineStyle_piece?_ne (source : Text) (e : Element) :
    (e.inlineStyle source).piece? ≠ some getStyleCall := by
  rw [inlineStyle]
  cases e.attribute? styleAttribute with
  | none => exact (Option.some_ne_none getStyleCall).symm
  | some a => exact a.inlineStyle_piece?_ne source

/-- The style of an element is generated with a call if and only if its class names
are dynamic. -/
theorem ClassValue.callsGetStyle_generate (v : ClassValue) (source : Text) (e : Element) :
    (Attribute.generate styleAttribute
      (v.styleExpression (e.inlineStyle source))).callsGetStyle = v.needsGetStyle := by
  rw [Bool.eq_iff_iff, ← ClassValue.getStyleCall_mem_entries]
  refine (List.contains_iff_mem).trans ⟨fun isIn => ?_, fun ⟨entry, member, isIn⟩ =>
    mem_styleExpression_of_mem member isIn⟩
  rcases mem_styleExpression isIn with separates | inEntry | isStyle
  · exact absurd separates (by decide)
  · exact inEntry
  · exact absurd isStyle (e.inlineStyle_piece?_ne source)

namespace Element

variable (source : Text) (settings : Settings) (e : Element)

/-- A dynamic element has a call in its style after restyling. -/
theorem callsGetStyle_restyle_of_isDynamic (dynamic : e.isDynamic source = true) :
    (e.restyle source settings).callsGetStyle = true := by
  obtain ⟨v, value, needs⟩ := (Option.any_eq_true _ _).1 dynamic
  have attributes := e.restyle_attributes source settings
  have nonempty : v.isEmpty = false := by
    cases v with
    | static tokens => cases needs
    | dynamic x => rfl
  simp only [value, nonempty, Bool.false_eq_true, if_false] at attributes
  refine List.any_eq_true.2 ⟨_, ?_, (v.callsGetStyle_generate source e).trans needs⟩
  rw [attributes]
  exact mem_mapClasses_of_other (new_mem_replaceLast styleAttribute _ _)
    (generate_style_not_class _)

/-- A call in a restyled element was there before, or the element was dynamic. -/
theorem callsGetStyle_of_restyle (calls : (e.restyle source settings).callsGetStyle = true) :
    e.callsGetStyle = true ∨ e.isDynamic source = true := by
  obtain ⟨a, member, calls⟩ := List.any_eq_true.1 calls
  have before (memberA : a ∈ e.attributes) : e.callsGetStyle = true :=
    List.any_eq_true.2 ⟨a, memberA, calls⟩
  have attributes := e.restyle_attributes source settings
  cases value : e.classValue? source with
  | none =>
    simp only [value] at attributes
    exact .inl (before (attributes ▸ member))
  | some v =>
    simp only [value] at attributes
    rw [attributes] at member
    split at member
    · rcases mem_mapClasses member with ⟨member, _⟩ | ⟨_, _, _, isIn⟩
      · exact .inl (before member)
      · cases isIn
    · rcases mem_mapClasses member with ⟨member, _⟩ | ⟨c, memberC, isClass, isIn⟩
      · rcases mem_replaceLast member with rfl | member
        · rw [ClassValue.callsGetStyle_generate] at calls
          exact .inr ((Option.any_eq_true _ _).2 ⟨v, value, calls⟩)
        · exact .inl (before member)
      · rcases mem_replaceLast memberC with rfl | memberC
        · rw [generate_style_not_class] at isClass
          cases isClass
        · -- a class attribute keeps its code when it is renamed
          have same : a.callsGetStyle = c.callsGetStyle := by
            rcases settings.mem_classAttributes isIn with rfl | rfl <;> rfl
          exact .inl (List.any_eq_true.2 ⟨c, memberC, same ▸ calls⟩)

/-- An element without class names is restyled to itself. -/
theorem restyle_callsGetStyle_of_none (none : e.classValue? source = none) :
    (e.restyle source settings).callsGetStyle = e.callsGetStyle := by
  have attributes := e.restyle_attributes source settings
  simp only [none] at attributes
  rw [callsGetStyle, attributes, callsGetStyle]

/-- The calls of an element are settled: those that it has can be made again, or it has
no class names to be restyled by. -/
def Settled : Prop :=
  e.callsGetStyle = true → e.isDynamic source = true ∨ e.classValue? source = none

variable {source e}

theorem Laid.not_callsGetStyle (h : e.Laid) : e.callsGetStyle = false := by
  refine List.any_eq_false.2 fun a member => ?_
  rw [h.unchanged] at member
  obtain ⟨s, laid, _⟩ := h.laidOut.bounds member
  rw [laid.not_callsGetStyle]
  exact Bool.false_ne_true

theorem Laid.settled (h : e.Laid) : e.Settled source := by
  intro calls
  rw [h.not_callsGetStyle] at calls
  cases calls

/-- Restyling a settled element adds a call if it is dynamic and takes none out. -/
theorem Settled.callsGetStyle_restyle (h : e.Settled source) (settings : Settings) :
    (e.restyle source settings).callsGetStyle = (e.callsGetStyle || e.isDynamic source) := by
  rw [Bool.eq_iff_iff, Bool.or_eq_true]
  refine ⟨e.callsGetStyle_of_restyle source settings, fun before => ?_⟩
  cases dynamic : e.isDynamic source with
  | true => exact e.callsGetStyle_restyle_of_isDynamic source settings dynamic
  | false =>
    have calls := before.resolve_right (by simp [dynamic])
    have none := (h calls).resolve_left (by simp [dynamic])
    rw [e.restyle_callsGetStyle_of_none source settings none]
    exact calls

theorem Settled.restyle (h : e.Settled source) (settings : Settings) :
    (e.restyle source settings).Settled source := by
  intro calls
  rw [h.callsGetStyle_restyle] at calls
  rw [isDynamic_restyle, classValue?_restyle]
  cases dynamic : e.isDynamic source with
  | true =>
    cases settings.keepClasses with
    | true => exact .inl rfl
    | false => exact .inr (by simp)
  | false =>
    rw [dynamic, Bool.or_false] at calls
    rw [(h calls).resolve_left (by simp [dynamic])]
    exact .inr rfl

end Element

end StyleBinding
