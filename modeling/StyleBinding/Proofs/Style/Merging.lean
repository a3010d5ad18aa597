import StyleBinding.Proofs.Style.Names

/-!
# Merged stylesheets

What a list of stylesheets is merged to. A class has the whole entry of the last
stylesheet that defines it, and stands where the first one that defines it brings it.
Stylesheets can be merged in two parts. So the style of a class text takes each of its
classes from one stylesheet only.
-/

namespace StyleBinding

namespace Entries

variable {s : Entries} {sheets : List Entries} {k : Key}

/-! ## One key -/

theorem has_eq_isSome (k : Key) (s : Entries) : has k s = (get? k s).isSome := by
  induction s with
  | nil => rfl
  | cons e rest ih =>
    rw [has_cons, get?, ih]
    cases e.1.same k <;> rfl

/-- In a mapping with its keys apart the order of the entries does not matter to a key. -/
theorem Distinct.get?_reverse (h : s.Distinct) (k : Key) : get? k s.reverse = get? k s := by
  have again := get?_merge k [] s
  rw [merge_nil_of_distinct h, get?, Option.or_none] at again
  exact again.symm

/-- The last of mappings that has a key; an empty one if none does. -/
def lastWith (k : Key) (sheets : List Entries) : Entries :=
  (sheets.reverse.find? (has k)).getD []

theorem lastWith_concat (k : Key) (sheets : List Entries) (s : Entries) :
    lastWith k (sheets ++ [s]) = if has k s then s else lastWith k sheets := by
  rw [lastWith, List.reverse_append, List.reverse_singleton, List.singleton_append, List.find?_cons]
  cases has k s <;> rfl

theorem lastWith_mem (present : has k (lastWith k sheets) = true) :
    lastWith k sheets ∈ sheets := by
  rw [lastWith] at present ⊢
  cases found : sheets.reverse.find? (has k) with
  | none =>
    rw [found] at present
    cases present
  | some s => exact List.mem_reverse.1 (List.mem_of_find?_eq_some found)

/-! ## All mappings -/

theorem foldl_merge (sheets : List Entries) (s : Entries) :
    sheets.foldl merge s = s.merge sheets.flatten := by
  rw [← List.flatMap_id, ← foldl_merge_map, List.map_id]

theorem distinct_foldl_merge (sheets : List Entries) : (sheets.foldl merge []).Distinct := by
  rw [foldl_merge]
  exact Distinct.nil.merge _

/-- A key has the value of the last mapping that has the key. -/
theorem get?_foldl_merge (distinct : ∀ s ∈ sheets, s.Distinct) (k : Key) :
    get? k (sheets.foldl merge []) = get? k (lastWith k sheets) := by
  induction sheets using List.reverseRecOn with
  | nil => rfl
  | append_singleton front s ih =>
    obtain ⟨before, last⟩ := List.forall_mem_append.1 distinct
    rw [List.foldl_append, List.foldl_cons, List.foldl_nil, get?_merge,
      (List.forall_mem_singleton.1 last).get?_reverse, ih before, lastWith_concat,
      has_eq_isSome]
    cases found : get? k s with
    | none => rfl
    | some v =>
      rw [Option.isSome_some, if_pos rfl, found]
      rfl

/-- Keys stand where the first mapping that has them brings them. -/
theorem keys_foldl_merge (sheets : List Entries) :
    (sheets.foldl merge []).keys = Key.firsts (sheets.flatMap keys) := by
  have all : keys sheets.flatten = sheets.flatMap keys := List.map_flatten
  rw [foldl_merge, keys_merge, keys_nil, List.nil_append, all]
  simp

/-- Mappings can be merged in two parts. -/
theorem foldl_merge_append (front back : List Entries) :
    merge (front.foldl merge []) (back.foldl merge []) = (front ++ back).foldl merge [] := by
  rw [foldl_merge back, merge_merge_nil, List.foldl_append, foldl_merge back]

/-- An entry of the merged mappings is one of the last mapping that has its key. -/
theorem exists_of_mem_foldl_merge (distinct : ∀ s ∈ sheets, s.Distinct) {e : Key × Value}
    (member : e ∈ sheets.foldl merge []) : ∃ s ∈ sheets, ∃ f ∈ s, f.2 = e.2 := by
  have found := (distinct_foldl_merge sheets).get?_of_mem member
  rw [get?_foldl_merge distinct] at found
  have present : has e.1 (lastWith e.1 sheets) = true := by
    rw [has_eq_isSome, found]
    rfl
  exact ⟨_, lastWith_mem present, get?_mem found⟩

theorem isStylesheet_foldl_merge (distinct : ∀ s ∈ sheets, s.Distinct)
    (styles : ∀ s ∈ sheets, s.IsStylesheet) : (sheets.foldl merge []).IsStylesheet := by
  intro e member counts
  obtain ⟨s, isSheet, f, inside, same⟩ := exists_of_mem_foldl_merge distinct member
  rw [← same] at counts ⊢
  exact styles s isSheet f inside counts

end Entries

open Entries

/-! ## Stylesheets -/

theorem mergeSheets_eq (sheets : List Entries) :
    mergeSheets (sheets.map .mapping) = .ok (sheets.foldl merge []) := by
  have each (s : Entries) :
      (sheets.map Value.mapping).foldlM Entries.update s = .ok (sheets.foldl merge s) := by
    induction sheets generalizing s with
    | nil => rfl
    | cons sheet rest ih =>
      rw [List.map_cons, List.foldlM_cons, List.foldl_cons, ← ih]
      rfl
  exact each []

/-- The last of stylesheets that defines a class. -/
abbrev lastDefining (name : Text) (sheets : List Entries) : Entries :=
  lastWith (.scalar (.text name)) sheets

/-- Stylesheets are merged to one in which every class has its entry from the last one that
defines it and its place from the first, in one go or in two. The style of a text is merged
from what the last one that defines it has for each of its classes. -/
theorem mergeSheets_lastDefining {sheets : List Entries} (distinct : ∀ s ∈ sheets, s.Distinct)
    (styles : ∀ s ∈ sheets, s.IsStylesheet) :
    ∃ merged, mergeSheets (sheets.map .mapping) = .ok merged ∧
      (∀ k, get? k merged = get? k (lastWith k sheets)) ∧
      merged.keys = Key.firsts (sheets.flatMap keys) ∧
      (∀ front back, front ++ back = sheets → ∃ left right,
        mergeSheets (front.map .mapping) = .ok left ∧
        mergeSheets (back.map .mapping) = .ok right ∧
        mergeSheets [.mapping left, .mapping right] = .ok merged) ∧
      ∀ text, classStyle (.mapping merged) text =
        .ok (merge [] (text.words.flatMap fun name =>
          (lastDefining name sheets).styleIn name)) := by
  refine ⟨_, mergeSheets_eq sheets, get?_foldl_merge distinct, keys_foldl_merge sheets, ?_, ?_⟩
  · rintro front back rfl
    refine ⟨_, _, mergeSheets_eq front, mergeSheets_eq back, ?_⟩
    have halves := mergeSheets_eq [front.foldl merge [], back.foldl merge []]
    rw [List.foldl_cons, merge_nil_of_distinct (distinct_foldl_merge front)] at halves
    exact halves.trans (congrArg Except.ok (foldl_merge_append front back))
  · intro text
    rw [(isStylesheet_foldl_merge distinct styles).classStyle_eq]
    have each (name : Text) : (sheets.foldl merge []).styleIn name =
        (lastDefining name sheets).styleIn name := by
      rw [styleIn, styleIn, get?_foldl_merge distinct]
    rw [funext each]

/-- A stylesheet with another entry for one of two classes, and with a class in front. -/
def overlappingSheet : Entries := [
  (.scalar (.text "c"), .mapping [(.scalar (.text "margin"), .scalar (.integer 4))]),
  (.scalar (.text "a"), .mapping [(.scalar (.text "order"), .scalar (.integer 1))])]

/-- The class `a` stands first, and has nothing of its entry in the first stylesheet. -/
theorem mergeSheets_lastDefining_overlapping :
    (∀ s ∈ [twoStyles, overlappingSheet], s.Distinct ∧ s.IsStylesheet) ∧
      ∃ merged, mergeSheets [.mapping twoStyles, .mapping overlappingSheet] = .ok merged ∧
        merged.keys = [.scalar (.text "a"), .scalar (.text "b"), .scalar (.text "c")] ∧
        classStyle (.mapping merged) "b a" = .ok [
          (.scalar (.text "color"), .text "blue"),
          (.scalar (.text "order"), .scalar (.integer 1))] := by
  have distinct : ∀ s ∈ [twoStyles, overlappingSheet], s.Distinct := by decide
  have styles : ∀ s ∈ [twoStyles, overlappingSheet], s.IsStylesheet := by
    simp [twoStyles, overlappingSheet, IsStylesheet, or_imp, forall_and]
  obtain ⟨merged, isMerge, -, isKeys, -, isStyle⟩ := mergeSheets_lastDefining distinct styles
  exact ⟨fun s member => ⟨distinct s member, styles s member⟩, merged, isMerge, isKeys,
    isStyle "b a"⟩

end StyleBinding
