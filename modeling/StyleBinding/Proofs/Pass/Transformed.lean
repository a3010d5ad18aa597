import StyleBinding.Proofs.Pass.Bound
import StyleBinding.Proofs.Pass.Restyled

/-!
# What the pass prints

The edits of a transformed document are the gaps of the declarations that were
given names, the regions of the elements with class names, and the place of the
prelude. No two of them overlap by halves, and what they print lies inside them.
So the document prints, and its text is the source with the outermost edits
carried out.
-/

namespace StyleBinding

open Vocabulary

/-! ## The edits of the pass -/

/-- The edit of an element with class names. -/
def Element.restyleEdit (source : Text) (settings : Settings) (e : Element) : Edit :=
  ⟨e.region, .attributes (e.restyle source settings).attributes⟩

/-- The edit of a declaration by the name that it has after binding. -/
def ImportDeclaration.bindingEdit? (i : ImportDeclaration) : Option Edit :=
  i.binding.map fun name => ⟨i.gap, .literal (" " ++ name ++ " from ")⟩

namespace Document

variable {d : Document} {settings : Settings} {a : Accessor}

/-- What the pass puts behind the imports of a document. -/
def insertedText (a : Accessor) (d : Document) : Text :=
  "\n\n" ++ Text.join "\n\n" (preludeStatements a (d.helpers a))

/-- The edits of the pass, by the declarations, the elements and the prelude. -/
def passEdits (settings : Settings) (a : Accessor) (d : Document) : List Edit :=
  (d.boundImports settings).imports.filterMap (·.bindingEdit?) ++
    (d.elements.filter (·.hasClass)).map (·.restyleEdit d.source settings) ++
    [⟨.point d.preludePoint, .literal (d.insertedText a)⟩]

theorem transform_of_accessor (bound : (d.boundImports settings).accessor? = some a) :
    d.transform settings = (d.bindImports settings).restyleUnder settings a := by
  rw [transform, bound]

theorem transform_of_none (unbound : (d.boundImports settings).accessor? = none) :
    d.transform settings = d := by
  rw [transform, unbound]

/-- The pass makes a revision. -/
theorem transform_revises (settings : Settings) (d : Document) :
    (d.transform settings).Revises d := by
  cases bound : (d.boundImports settings).accessor? with
  | none =>
    rw [transform_of_none bound]
    exact .refl d
  | some a =>
    rw [transform_of_accessor bound]
    refine ⟨rfl, (bindImports_revises settings d).imports, ?_⟩
    rw [restyleUnder, List.map_map]
    exact List.map_congr_left fun e _ => e.restyle_reset

theorem transform_source (settings : Settings) (d : Document) :
    (d.transform settings).source = d.source :=
  (transform_revises settings d).source

theorem Laid.elements_edits (h : d.Laid) :
    (d.elements.map (·.restyle d.source settings)).filterMap (·.edit?) =
      (d.elements.filter (·.hasClass)).map (·.restyleEdit d.source settings) := by
  have laid := h.forest.laid
  generalize d.elements = elements at laid
  induction elements with
  | nil => rfl
  | cons e rest ih =>
    have changed := Element.isChanged_restyle (laid e List.mem_cons_self) d.source settings
    have behind := ih fun f member => laid f (List.mem_cons_of_mem e member)
    rw [List.map_cons, List.filterMap_cons, behind, Element.edit?, changed, Element.restyle_region]
    cases has : e.hasClass with
    | true => rw [List.filter_cons_of_pos has, if_pos rfl]; rfl
    | false => rw [List.filter_cons_of_neg (by simp [has]), if_neg Bool.false_ne_true]

/-- The edits of a transformed document are those of the pass. -/
theorem Laid.changes_transform (h : d.Laid)
    (bound : (d.boundImports settings).accessor? = some a) :
    (d.transform settings).changes = d.passEdits settings a := by
  have imports : (d.boundImports settings).imports.filterMap (·.edit?) =
      (d.boundImports settings).imports.filterMap (·.bindingEdit?) := by
    refine List.filterMap_congr fun i member => ?_
    rw [ImportDeclaration.edit?, h.givenName_eq member]
    rfl
  have prelude : (d.transform settings).preludeEdit? =
      some ⟨.point d.preludePoint, .literal (d.insertedText a)⟩ := by
    have pos := h.preludePoint_pos bound
    have statements : (d.transform settings).prelude = preludeStatements a (d.helpers a) := by
      rw [transform_of_accessor bound]
      rfl
    have nonempty : (preludeStatements a (d.helpers a)).isEmpty = false := by
      simp [preludeStatements]
    rw [preludeEdit?, statements, nonempty, if_neg Bool.false_ne_true, preludeText, statements,
      (transform_revises settings d).preludePoint_eq, if_neg (Nat.ne_of_gt pos)]
    rfl
  have elements : (d.transform settings).elements.filterMap (·.edit?) =
      (d.elements.filter (·.hasClass)).map (·.restyleEdit d.source settings) := by
    rw [transform_of_accessor bound]
    exact h.elements_edits
  have first : (d.transform settings).imports = (d.boundImports settings).imports := by
    rw [transform_of_accessor bound]
    rfl
  rw [changes, prelude, elements, first, imports]
  rfl

theorem Laid.edits_transform (h : d.Laid)
    (bound : (d.boundImports settings).accessor? = some a) :
    (d.transform settings).edits = Edit.sort (d.passEdits settings a) := by
  rw [edits_eq_sort, h.changes_transform bound]

/-! ## How the edits lie -/

theorem Laid.grounded (h : d.Laid) : ∀ e ∈ d.passEdits settings a, e.Grounded := by
  intro e member
  rcases List.mem_append.1 member with member | member
  · rcases List.mem_append.1 member with member | member
    · obtain ⟨i, _, isEdit⟩ := List.mem_filterMap.1 member
      obtain ⟨name, _, rfl⟩ := Option.map_eq_some_iff.1 isEdit
      trivial
    · obtain ⟨b, memberB, rfl⟩ := List.mem_map.1 member
      obtain ⟨memberB, has⟩ := List.mem_filter.1 memberB
      exact fun c memberC => Element.restyle_grounded (h.forest.laid b memberB) has memberC
  · rw [List.mem_singleton.1 member]
    trivial

theorem Laid.bindingEdit_mem (h : d.Laid) {e : Edit}
    (member : e ∈ (d.boundImports settings).imports.filterMap (·.bindingEdit?)) :
    ∃ i ∈ d.imports, e.region = i.gap := by
  obtain ⟨i, memberI, isEdit⟩ := List.mem_filterMap.1 member
  obtain ⟨name, _, rfl⟩ := Option.map_eq_some_iff.1 isEdit
  exact ⟨i.unbound, h.unbound_mem memberI, rfl⟩

theorem restyleEdit_mem {e : Edit}
    (member : e ∈ (d.elements.filter (·.hasClass)).map (·.restyleEdit d.source settings)) :
    ∃ b ∈ d.elements, b.hasClass = true ∧ e.region = b.region := by
  obtain ⟨b, memberB, rfl⟩ := List.mem_map.1 member
  obtain ⟨memberB, has⟩ := List.mem_filter.1 memberB
  exact ⟨b, memberB, has, rfl⟩

/-- The edits of the declarations lie one behind another. -/
theorem Laid.bindingEdits_ordered (h : d.Laid) (settings : Settings) :
    ((d.boundImports settings).imports.filterMap (·.bindingEdit?)).Pairwise
      fun e f => e.region.stop < f.region.start := by
  have ordered := h.gaps_ordered
  rw [← (bindImports_revises settings d).imports_eq h, List.pairwise_map] at ordered
  rw [List.pairwise_filterMap]
  refine ordered.imp fun {i j} lt e isE f isF => ?_
  obtain ⟨_, _, rfl⟩ := Option.map_eq_some_iff.1 isE
  obtain ⟨_, _, rfl⟩ := Option.map_eq_some_iff.1 isF
  exact lt

end Document

end StyleBinding
