import StyleBinding.Proofs.Style.Entries
import StyleBinding.Style.Resolution

/-!
# The names in a class value

However deep a class value is nested, its style is found in two steps: the names
in it are written down from left to right, and the styles of these names are merged
in that order. So a property stands where a name brings it first, with the value
that the last name gives it.
-/

namespace StyleBinding

open Entries

/-! ## Stylesheets -/

/-- Every entry is a style, or counts as false and so as none. -/
def Entries.IsStylesheet (sheet : Entries) : Prop :=
  ∀ entry ∈ sheet, entry.2.isTruthy = true → ∃ style, entry.2 = .mapping style

/-- Every entry is a style. -/
def Entries.AreStyles (sheet : Entries) : Prop :=
  ∀ entry ∈ sheet, ∃ style, entry.2 = .mapping style

theorem Entries.AreStyles.isStylesheet {sheet : Entries} (h : sheet.AreStyles) :
    sheet.IsStylesheet := fun entry member _ => h entry member

/-- The style that a stylesheet has for a class; none is an empty one. -/
def Entries.styleIn (sheet : Entries) (name : Text) : Entries :=
  match get? (.scalar (.text name)) sheet with
  | some (.mapping style) => style
  | _ => []

theorem Entries.get?_mem {k : Key} {v : Value} {s : Entries} (h : get? k s = some v) :
    ∃ e ∈ s, e.2 = v := by
  induction s with
  | nil => cases h
  | cons e rest ih =>
    rw [get?] at h
    split at h
    · cases h
      exact ⟨e, List.mem_cons_self, rfl⟩
    · obtain ⟨e', member, isValue⟩ := ih h
      exact ⟨e', List.mem_cons_of_mem e member, isValue⟩

namespace Entries.IsStylesheet

variable {sheet : Entries} (h : sheet.IsStylesheet)
include h

theorem classEntry_eq (name : Text) :
    classEntry (.mapping sheet) name = .ok (.mapping (sheet.styleIn name)) := by
  rw [classEntry, styleIn]
  rcases found : get? (.scalar (.text name)) sheet with _ | entry
  · rfl
  · dsimp only
    cases counts : entry.isTruthy with
    | true =>
      obtain ⟨e, member, rfl⟩ := get?_mem found
      obtain ⟨style, isStyle⟩ := h e member counts
      rw [if_pos rfl, isStyle]
    | false =>
      rw [if_neg Bool.false_ne_true]
      rcases entry with s | items | items | (_ | ⟨e, rest⟩)
      · rfl
      · rfl
      · rfl
      · rfl
      · cases counts

theorem addClass_eq (style : Entries) (name : Text) :
    addClass (.mapping sheet) style name = .ok (style.merge (sheet.styleIn name)) := by
  rw [addClass, h.classEntry_eq]
  rfl

/-- The style of a text is merged from those of its words. -/
theorem classStyle_eq (text : Text) :
    classStyle (.mapping sheet) text = .ok (merge [] (text.words.flatMap sheet.styleIn)) := by
  have each (style : Entries) (names : List Text) :
      names.foldlM (addClass (.mapping sheet)) style =
        .ok (style.merge (names.flatMap sheet.styleIn)) := by
    induction names generalizing style with
    | nil => rfl
    | cons name rest ih =>
      rw [List.foldlM_cons, h.addClass_eq, List.flatMap_cons, merge_append, ← ih]
      rfl
  exact each [] text.words

end Entries.IsStylesheet

/-! ## Names -/

namespace Value

/-- Whether a value names classes: a text, a sequence or a mapping. -/
def isNaming : Value → Bool
  | scalar (.text _) => true
  | scalar _ => false
  | _ => true

mutual
/-- The class names in a value, from left to right. A mapping names the classes in
its keys whose value counts. -/
def namesBy (counts : Value → Bool) : Value → List Text
  | scalar (.text t) => t.words
  | scalar _ => []
  | list items => namesOfAll counts items
  | tuple items => namesOfAll counts items
  | mapping entries => (entries.filter (counts ·.2)).flatMap (·.1.display.words)

/-- The class names in values, one after another. -/
def namesOfAll (counts : Value → Bool) : List Value → List Text
  | [] => []
  | item :: rest => namesBy counts item ++ namesOfAll counts rest
end

/-- The class names in a value, where the values count that are true. -/
abbrev names (v : Value) : List Text := v.namesBy isTruthy

end Value

/-! ## Styles -/

theorem addEnabled_eq {sheet : Entries} (h : sheet.IsStylesheet) (style : Entries)
    (entry : Key × Value) :
    addEnabled (.mapping sheet) style entry =
      .ok (if entry.2.isTruthy then style.merge (entry.1.display.words.flatMap sheet.styleIn)
        else style) := by
  rw [addEnabled, h.classStyle_eq]
  split
  · exact congrArg Except.ok (merge_merge_nil ..)
  · rfl

/-- The style of a mapping is merged from those of the names in its keys. -/
theorem foldlM_addEnabled_eq {sheet : Entries} (h : sheet.IsStylesheet) (style entries : Entries) :
    entries.foldlM (addEnabled (.mapping sheet)) style =
      .ok (style.merge ((Value.names (.mapping entries)).flatMap sheet.styleIn)) := by
  rw [Value.names, Value.namesBy]
  induction entries generalizing style with
  | nil => rfl
  | cons entry rest ih =>
    rw [List.foldlM_cons, addEnabled_eq h, List.filter_cons]
    change List.foldlM (addEnabled (.mapping sheet)) _ rest = _
    rw [ih]
    split
    · rw [List.flatMap_cons, List.flatMap_append, merge_append]
    · rfl

mutual
/-- What a class value stands for: itself, or what its names stand for. -/
theorem styleOf_eq {sheet : Entries} (h : sheet.IsStylesheet) : ∀ v : Value,
    styleOf (.mapping sheet) v =
      .ok (if v.isNaming then .mapping (merge [] (v.names.flatMap sheet.styleIn)) else v)
  | .scalar (.text t) => by
    rw [styleOf, h.classStyle_eq]
    rfl
  | .scalar .null | .scalar (.boolean _) | .scalar (.integer _) | .scalar (.double _) => rfl
  | .list items | .tuple items => by
    rw [styleOf, addStyles_eq h [] items]
    rfl
  | .mapping entries => by
    rw [styleOf, foldlM_addEnabled_eq h]
    rfl

/-- What the names in values stand for is put over a style. -/
theorem addStyles_eq {sheet : Entries} (h : sheet.IsStylesheet) :
    ∀ (style : Entries) (items : List Value), addStyles (.mapping sheet) style items =
      .ok (style.merge ((Value.namesOfAll Value.isTruthy items).flatMap sheet.styleIn))
  | style, [] => rfl
  | style, item :: rest => by
    rw [addStyles, styleOf_eq h item, Value.namesOfAll, List.flatMap_append, merge_append]
    cases naming : item.isNaming with
    | true =>
      simp only [if_pos]
      rw [merge_merge_nil, addStyles_eq h _ rest]
    | false =>
      rcases item with (_ | _ | _ | _ | t) | items | items | entries
      · exact addStyles_eq h style rest
      · exact addStyles_eq h style rest
      · exact addStyles_eq h style rest
      · exact addStyles_eq h style rest
      all_goals cases naming
end

/-- The style of a class value that names classes is the merge of the styles of its
names: each property stands where it comes first and has the value that comes last. -/
theorem styleOf_eq_merge {sheet : Entries} (h : sheet.IsStylesheet) {v : Value}
    (naming : v.isNaming = true) :
    ∃ style, styleOf (.mapping sheet) v = .ok (.mapping style) ∧
      style = (v.names.map sheet.styleIn).foldl merge [] ∧
      keys style = Key.firsts (keys (v.names.flatMap sheet.styleIn)) ∧
      ∀ key, get? key style = get? key (v.names.flatMap sheet.styleIn).reverse := by
  refine ⟨merge [] (v.names.flatMap sheet.styleIn), ?_, ?_, ?_, ?_⟩
  · rw [styleOf_eq h, if_pos naming]
  · rw [foldl_merge_map]
  · rw [keys_merge, keys_nil, List.nil_append]
    simp
  · intro key
    rw [get?_merge, get?, Option.or_none]

/-- Two styles that share a property. -/
def twoStyles : Entries := [
  (.scalar (.text "a"), .mapping [
    (.scalar (.text "color"), .text "red"), (.scalar (.text "flex"), .scalar (.integer 1))]),
  (.scalar (.text "b"), .mapping [
    (.scalar (.text "color"), .text "blue"), (.scalar (.text "order"), .scalar (.integer 2))])]

/-- Two styles, and a class without one. -/
def sharedSheet : Entries := twoStyles ++ [(.scalar (.text "none"), .null)]

/-- The class `b` in the keys of a mapping in a sequence, before the class `a`. -/
def nestedClasses : Value := .list [
  .mapping [(.scalar (.text "none b"), .scalar (.boolean true)),
    (.scalar (.text "c"), .list [])],
  .tuple [.null, .text " a "]]

/-- The colour stands first, where `b` brings it, and is the one that `a` has. -/
theorem styleOf_eq_merge_nested :
    sharedSheet.IsStylesheet ∧ nestedClasses.isNaming = true ∧
      styleOf (.mapping sharedSheet) nestedClasses = .ok (.mapping [
        (.scalar (.text "color"), .text "red"), (.scalar (.text "order"), .scalar (.integer 2)),
        (.scalar (.text "flex"), .scalar (.integer 1))]) := by
  have sheet : sharedSheet.IsStylesheet := by
    simp [sharedSheet, twoStyles, Entries.IsStylesheet, Value.isTruthy, Scalar.isTruthy]
  obtain ⟨style, isStyle, isMerge, -, -⟩ := styleOf_eq_merge sheet (v := nestedClasses) rfl
  refine ⟨sheet, rfl, ?_⟩
  rw [isStyle, isMerge]
  rfl

end StyleBinding
