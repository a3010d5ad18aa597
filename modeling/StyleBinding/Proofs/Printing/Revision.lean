import Mathlib.Data.List.Basic
import StyleBinding.Document.Change
import StyleBinding.Proofs.Printing.Edits
import StyleBinding.Proofs.Reading.Declarations

/-!
# Revisions of a document

A revision of a document that was read has other attributes, other names for its
imports and other statements behind them, and nothing else about it is different.
However it was revised, the regions that it edits are gaps of its declarations,
regions of its elements and the place of the prelude, and of any two of them
either both keep apart or one lies strictly inside the other.
-/

namespace StyleBinding

/-! ## Regions that keep apart -/

/-- Edits that keep apart do not start together nor overlap by halves. -/
theorem Edit.Compatible.of_apart {e f : Edit} (h : e.region.Apart f.region) : e.Compatible f := by
  have := e.region.le
  have := f.region.le
  unfold Span.Apart at h
  constructor <;> omega

/-- How the region of an element lies to that of an earlier one. -/
theorem Element.Precedes.regions {e f : Element} (h : e.Precedes f) (he : e.Laid) (hf : f.Laid) :
    e.region.start < f.span.start ∧
      (e.region.stop < f.span.start ∨ f.span.stop ≤ e.region.stop) := by
  have := he.stop_lt
  have := e.region.le
  have := hf.start_lt
  cases h with
  | behind le => exact ⟨by omega, .inl (by omega)⟩
  | @inAttribute a s member laid above below =>
    obtain ⟨t, laidT, start, stop⟩ := he.laidOut.bounds member
    obtain rfl := laid.span_unique laidT
    exact ⟨by omega, .inr (by omega)⟩
  | child above below => exact ⟨by omega, .inl (by omega)⟩

theorem Element.Precedes.apart {e f : Element} (h : e.Precedes f) (he : e.Laid) (hf : f.Laid) :
    e.region.Apart f.region := by
  have := hf.start_lt
  have := hf.stop_lt
  have := h.regions he hf
  unfold Span.Apart
  omega

namespace Document

variable {d d' : Document}

/-- A gap and the region of an element do not meet. -/
theorem Laid.gap_clear (h : d.Laid) {i : ImportDeclaration} {e : Element} (memberI : i ∈ d.imports)
    (memberE : e ∈ d.elements) :
    e.region.stop < i.gap.start ∨ i.gap.stop < e.region.start := by
  have laid := h.declared.laid i memberI
  have start := (h.forest.laid e memberE).start_lt
  have stop := (h.forest.laid e memberE).stop_lt
  have := laid.gap_start
  have := laid.gap_stop
  have := laid.path_lt
  have := laid.path_le
  cases h.declared.clear i memberI e memberE with
  | before le => exact .inl (by omega)
  | inside le => exact .inr (by omega)
  | @after m skips le =>
    have : i.span.stop ≤ m.offset := skips.upto.offset_le
    exact .inr (by omega)

/-- The gaps of the declarations lie one behind another. -/
theorem Laid.gaps_ordered (h : d.Laid) :
    d.imports.Pairwise fun i j => i.gap.stop < j.gap.start := by
  refine h.declared.ordered.imp_of_mem fun {i j} memberI memberJ le => ?_
  have laidI := h.declared.laid i memberI
  have := laidI.gap_stop
  have := laidI.path_lt
  have := laidI.path_le
  have := (h.declared.laid j memberJ).gap_start
  omega

/-- The place of the prelude lies behind every gap and outside of all regions. -/
theorem Laid.preludePoint_apart (h : d.Laid) :
    (∀ i ∈ d.imports, i.gap.stop < d.preludePoint) ∧
      ∀ e ∈ d.elements, e.region.stop < d.preludePoint ∨ d.preludePoint < e.region.start := by
  constructor
  · intro i member
    have := h.stop_le_preludePoint member
    have laid := h.declared.laid i member
    have := laid.gap_stop
    have := laid.path_lt
    have := laid.path_le
    omega
  · intro e member
    have := (h.forest.laid e member).start_lt
    have := (h.forest.laid e member).stop_lt
    rcases h.preludePoint_clear member with le | le
    · exact .inl (by omega)
    · exact .inr (by omega)

/-! ## Revisions -/

end Document

/-- A declaration without the name it has been given. -/
def ImportDeclaration.unbound (i : ImportDeclaration) : ImportDeclaration :=
  { i with binding := none }

namespace Document

variable {d d' : Document}

/-- A document differs from another one in nothing but the attributes of elements,
the names given to imports, and the prelude. -/
structure Revises (d' d : Document) : Prop where
  source : d'.source = d.source
  imports : d'.imports.map (·.unbound) = d.imports.map (·.unbound)
  elements : d'.elements.map (·.reset) = d.elements.map (·.reset)

theorem mem_modifyElement {index : Nat} {f : Element → Element} {e : Element}
    (h : e ∈ (d.modifyElement index f).elements) : e ∈ d.elements ∨ ∃ b ∈ d.elements, e = f b := by
  obtain ⟨i, isAt⟩ := List.mem_iff_getElem?.1 h
  rw [modifyElement, List.getElem?_modify] at isAt
  obtain ⟨b, isHere, rfl⟩ := Option.map_eq_some_iff.1 isAt
  have member := List.mem_of_getElem? isHere
  split
  · exact .inr ⟨b, member, rfl⟩
  · exact .inl member

namespace Revises

theorem refl (d : Document) : d.Revises d := ⟨rfl, rfl, rfl⟩

section Changes

variable (r : d'.Revises d)

include r

/-- Changing the attributes of an element makes a revision. -/
theorem modifyElement (index : Nat) {f : Element → Element} (only : ∀ e, (f e).reset = e.reset) :
    (d'.modifyElement index f).Revises d := by
  refine ⟨r.source, r.imports, .trans (List.ext_getElem? fun i => ?_) r.elements⟩
  rw [Document.modifyElement, List.getElem?_map, List.getElem?_map, List.getElem?_modify]
  cases d'.elements[i]? with
  | none => rfl
  | some e => by_cases same : index = i <;> simp [same, only]

/-- Other statements behind the imports make a revision. -/
theorem withPrelude (statements : List Text) : (d'.withPrelude statements).Revises d :=
  ⟨r.source, r.imports, r.elements⟩

/-- Giving a name to an import makes a revision. -/
theorem giveName (index : Nat) (name : Option Text) : (d'.giveName index name).Revises d := by
  refine ⟨r.source, .trans (List.ext_getElem? fun i => ?_) r.imports, r.elements⟩
  rw [Document.giveName, List.getElem?_map, List.getElem?_map, List.getElem?_modify]
  cases d'.imports[i]? with
  | none => rfl
  | some i => simp only [Option.map_eq_map, Option.map_some]; split <;> rfl

/-- The place of the prelude stays where it is. -/
theorem preludePoint_eq : d'.preludePoint = d.preludePoint := by
  have last := congrArg List.getLast? r.imports
  rw [List.getLast?_map, List.getLast?_map] at last
  unfold preludePoint
  rw [r.source]
  cases isLast : d.imports.getLast? with
  | none =>
    rw [isLast, Option.map_none, Option.map_eq_none_iff] at last
    rw [last]
  | some i =>
    rw [isLast, Option.map_some] at last
    obtain ⟨j, isLast', same⟩ := Option.map_eq_some_iff.1 last
    have same : j.unbound.span = i.unbound.span := congrArg _ same
    simp only [ImportDeclaration.unbound] at same
    rw [isLast']
    simp only [same]

end Changes

variable (r : d'.Revises d) (h : d.Laid)

include r h

/-- The declarations of a revision are those that were read, under other names. -/
theorem imports_eq : d'.imports.map (·.unbound) = d.imports := by
  have same : ∀ i ∈ d.imports, i.unbound = i := by
    intro i member
    have unnamed := (h.declared.laid i member).unnamed
    obtain ⟨span, gap, path, clause, ofTypes, binding⟩ := i
    cases unnamed
    rfl
  rw [r.imports, List.map_congr_left same, List.map_id']

/-- The elements of a revision are those that were read, with other attributes. -/
theorem elements_eq : d'.elements.map (·.reset) = d.elements := by
  have same : ∀ e ∈ d.elements, e.reset = e := by
    intro e member
    have unchanged := (h.forest.laid e member).unchanged
    obtain ⟨name, span, region, selfClosing, parsed, attributes⟩ := e
    cases unchanged
    rfl
  rw [r.elements, List.map_congr_left same, List.map_id']

theorem unbound_mem {i : ImportDeclaration} (member : i ∈ d'.imports) : i.unbound ∈ d.imports := by
  rw [← r.imports_eq h]
  exact List.mem_map_of_mem member

theorem reset_mem {e : Element} (member : e ∈ d'.elements) : e.reset ∈ d.elements := by
  rw [← r.elements_eq h]
  exact List.mem_map_of_mem member

end Revises

/-! ## The edits of a revision -/

/-- The edits of a document by the declarations, the elements and the prelude. -/
def changes (d : Document) : List Edit :=
  d.imports.filterMap (·.edit?) ++ d.elements.filterMap (·.edit?) ++ d.preludeEdit?.toList

theorem edits_eq_sort (d : Document) : d.edits = Edit.sort d.changes := rfl

theorem mem_edits {e : Edit} : e ∈ d.edits ↔ e ∈ d.changes :=
  (Edit.sort_perm d.changes).mem_iff

end Document

theorem ImportDeclaration.region_of_edit? {i : ImportDeclaration} {e : Edit}
    (h : i.edit? = some e) : e.region = i.gap := by
  obtain ⟨_, _, rfl⟩ := Option.map_eq_some_iff.1 h
  rfl

theorem Element.edit?_eq_some_iff {b : Element} {e : Edit} :
    b.edit? = some e ↔ b.isChanged = true ∧ e = ⟨b.region, .attributes b.attributes⟩ := by
  rw [edit?]
  cases b.isChanged <;> simp [eq_comm]

theorem Document.preludeEdit?_eq_some_iff {d : Document} {e : Edit} :
    d.preludeEdit? = some e ↔
      d.prelude ≠ [] ∧ e = ⟨.point d.preludePoint, .literal d.preludeText⟩ := by
  rw [preludeEdit?]
  cases d.prelude <;> simp [eq_comm]

namespace Document.Revises

variable {d d' : Document} (r : d'.Revises d) (h : d.Laid)

include r h

/-- The regions that a revision edits keep apart. -/
theorem apart : d'.changes.Pairwise fun e f => e.region.Apart f.region := by
  obtain ⟨behindGaps, outside⟩ := h.preludePoint_apart
  refine List.pairwise_append.2 ⟨List.pairwise_append.2 ⟨?_, ?_, ?_⟩, ?_, ?_⟩
  · have ordered := h.gaps_ordered
    rw [← r.imports_eq h, List.pairwise_map] at ordered
    rw [List.pairwise_filterMap]
    refine ordered.imp fun {i j} lt e isE f isF => ?_
    rw [i.region_of_edit? isE, j.region_of_edit? isF]
    exact .inl lt
  · have precedes := h.forest.precedes
    rw [← r.elements_eq h, List.pairwise_map] at precedes
    rw [List.pairwise_filterMap]
    refine precedes.imp_of_mem fun {b c} memberB memberC before e isE f isF => ?_
    rw [(Element.edit?_eq_some_iff.1 isE).2, (Element.edit?_eq_some_iff.1 isF).2]
    exact before.apart (h.forest.laid _ (r.reset_mem h memberB))
      (h.forest.laid _ (r.reset_mem h memberC))
  · intro e memberE f memberF
    obtain ⟨i, memberI, isE⟩ := List.mem_filterMap.1 memberE
    obtain ⟨b, memberB, isF⟩ := List.mem_filterMap.1 memberF
    rw [i.region_of_edit? isE, (Element.edit?_eq_some_iff.1 isF).2]
    exact (h.gap_clear (r.unbound_mem h memberI) (r.reset_mem h memberB)).symm.imp_right .inl
  · cases d'.preludeEdit? <;> simp
  · intro e memberE f memberF
    rw [Option.mem_toList, preludeEdit?_eq_some_iff] at memberF
    rw [memberF.2, r.preludePoint_eq]
    rcases List.mem_append.1 memberE with memberE | memberE
    · obtain ⟨i, memberI, isE⟩ := List.mem_filterMap.1 memberE
      rw [i.region_of_edit? isE]
      exact .inl (behindGaps i.unbound (r.unbound_mem h memberI))
    · obtain ⟨b, memberB, isE⟩ := List.mem_filterMap.1 memberE
      rw [(Element.edit?_eq_some_iff.1 isE).2]
      exact (outside _ (r.reset_mem h memberB)).imp_right .inl

theorem edits_apart : d'.edits.Pairwise fun e f => e.region.Apart f.region :=
  ((Edit.sort_perm d'.changes).pairwise_iff fun apart => Span.Apart.symm apart).2 (r.apart h)

/-- The regions that a revision edits lie in the source. -/
theorem edits_le : ∀ e ∈ d'.changes, e.region.stop ≤ d'.source.length := by
  rw [r.source]
  intro e member
  rcases List.mem_append.1 member with member | member
  · rcases List.mem_append.1 member with member | member
    · obtain ⟨i, memberI, isE⟩ := List.mem_filterMap.1 member
      have behind := h.preludePoint_apart.1 _ (r.unbound_mem h memberI)
      rw [i.region_of_edit? isE]
      exact Nat.le_of_lt (Nat.lt_of_lt_of_le behind h.preludePoint_le)
    · obtain ⟨b, memberB, isE⟩ := List.mem_filterMap.1 member
      have inside := (h.between.elements _ (r.reset_mem h memberB)).2
      have inFront := (h.forest.laid _ (r.reset_mem h memberB)).stop_lt
      rw [(Element.edit?_eq_some_iff.1 isE).2]
      exact Nat.le_of_lt (Nat.lt_of_lt_of_le inFront inside)
  · rw [Option.mem_toList, preludeEdit?_eq_some_iff] at member
    rw [member.2, r.preludePoint_eq]
    exact h.preludePoint_le

end Document.Revises

end StyleBinding
