import StyleBinding.Proofs.Printing.Revision
import StyleBinding.Stylesheet.Pass

/-!
# Bound imports

Binding gives names to declarations and changes nothing else about them. A name
that is given is never empty, and there is an accessor as soon as one is given.
-/

namespace StyleBinding

/-! ## Names -/

theorem generatedName_ne_nil (path : Text) : generatedName path ≠ [] := by
  unfold generatedName
  split
  · decide
  · dsimp only
    intro empty
    exact absurd (List.append_eq_nil_iff.1 empty).2 (by decide)

theorem freeName_ne_nil {name : Text} (taken : List Text) (h : name ≠ []) :
    freeName name taken ≠ [] := by
  unfold freeName
  cases found : (candidates name taken).find? fun n => !taken.contains n with
  | none => exact h
  | some candidate =>
    have member := List.mem_of_find?_eq_some found
    rw [candidates] at member
    rcases List.mem_cons.1 member with rfl | member
    · exact h
    · obtain ⟨k, _, rfl⟩ := List.mem_map.1 member
      exact fun empty => h (List.append_eq_nil_iff.1 empty).1

/-! ## Declarations -/

/-- Whether an import is one that the pass gives a name to. -/
def ImportDeclaration.isBindable (settings : Settings) (i : ImportDeclaration) : Bool :=
  !i.ofTypes && settings.isStylesheet i.clause.source && i.bindsNothing

namespace BoundImports

section Step

variable (settings : Settings) (taken bound : List Text) (i : ImportDeclaration)
  (rest : List ImportDeclaration)

/-- What becomes of the first of some imports: it is passed over when it is not
bindable or its path has been bound before, and else it is given a name. -/
theorem ofImports_cons_cases :
    ((i.isBindable settings = true → i.clause.source ∈ bound) ∧
      (ofImports settings taken bound (i :: rest)).imports =
        i :: (ofImports settings taken bound rest).imports ∧
      (ofImports settings taken bound (i :: rest)).bindings =
        (ofImports settings taken bound rest).bindings) ∨
    (i.isBindable settings = true ∧ i.clause.source ∉ bound ∧ ∃ name, name ≠ [] ∧
      (ofImports settings taken bound (i :: rest)).imports =
        { i with binding := some name } ::
          (ofImports settings (name :: taken) (i.clause.source :: bound) rest).imports ∧
      (ofImports settings taken bound (i :: rest)).bindings =
        name :: (ofImports settings (name :: taken) (i.clause.source :: bound) rest).bindings) := by
  rw [ofImports, ImportDeclaration.isBindable]
  dsimp only
  split
  · rename_i passed
    refine .inl ⟨fun bindable => ?_, rfl, rfl⟩
    rw [Bool.and_eq_true, Bool.and_eq_true, Bool.not_eq_true'] at bindable
    rw [bindable.1.1, bindable.1.2] at passed
    cases passed
  · rename_i stylesheet
    simp only [Bool.not_eq_true, Bool.or_eq_false_iff, Bool.not_eq_false'] at stylesheet
    rw [stylesheet.1, stylesheet.2]
    split
    · rename_i binds
      rw [Bool.not_eq_true'] at binds
      rw [binds]
      exact .inl ⟨nofun, rfl, rfl⟩
    · rename_i bindsNothing
      rw [Bool.not_eq_true', Bool.not_eq_false] at bindsNothing
      rw [bindsNothing]
      split
      · rename_i again
        exact .inl ⟨fun _ => List.contains_iff_mem.1 again, rfl, rfl⟩
      · rename_i new
        exact .inr ⟨rfl, new ∘ List.contains_iff_mem.2, _,
          freeName_ne_nil _ (generatedName_ne_nil _), rfl, rfl⟩

end Step

variable (settings : Settings) (taken bound : List Text) (imports : List ImportDeclaration)

/-- Binding changes nothing but names. -/
theorem ofImports_unbound :
    (ofImports settings taken bound imports).imports.map (·.unbound) =
      imports.map (·.unbound) := by
  induction imports generalizing taken bound with
  | nil => rfl
  | cons i rest ih =>
    rcases ofImports_cons_cases settings taken bound i rest with
      ⟨_, same, _⟩ | ⟨_, _, name, _, named, _⟩
    · rw [same, List.map_cons, List.map_cons, ih]
    · rw [named, List.map_cons, List.map_cons, ih]
      rfl

variable {settings taken bound imports}

/-- A declaration keeps the name it had or is given one that is not empty. -/
theorem binding_of_mem {i : ImportDeclaration}
    (member : i ∈ (ofImports settings taken bound imports).imports) :
    i ∈ imports ∨ ∃ name, i.binding = some name ∧ name ≠ [] := by
  induction imports generalizing taken bound with
  | nil => cases member
  | cons j rest ih =>
    rcases ofImports_cons_cases settings taken bound j rest with
      ⟨_, same, _⟩ | ⟨_, _, name, nonempty, named, _⟩
    · rw [same] at member
      rcases List.mem_cons.1 member with rfl | member
      · exact .inl List.mem_cons_self
      · exact (ih member).imp_left (List.mem_cons_of_mem j)
    · rw [named] at member
      rcases List.mem_cons.1 member with rfl | member
      · exact .inr ⟨name, rfl, nonempty⟩
      · exact (ih member).imp_left (List.mem_cons_of_mem j)

/-- Nothing is bound if and only if the path of every bindable import has been
bound before. -/
theorem bindings_ofImports_eq_nil_iff :
    (ofImports settings taken bound imports).bindings = [] ↔
      ∀ i ∈ imports, i.isBindable settings = true → i.clause.source ∈ bound := by
  induction imports generalizing taken bound with
  | nil => simp [ofImports, bindings]
  | cons i rest ih =>
    rw [List.forall_mem_cons]
    rcases ofImports_cons_cases settings taken bound i rest with
      ⟨passed, _, same⟩ | ⟨bindable, new, name, _, _, isNew⟩
    · rw [same, ih]
      exact (and_iff_right passed).symm
    · rw [isNew]
      exact ⟨nofun, fun h => absurd (h.1 bindable) new⟩

/-- The generated bindings are the names that have been given, in the order of the
imports. -/
theorem bindings_eq_filterMap (unnamed : ∀ i ∈ imports, i.binding = none) :
    (ofImports settings taken bound imports).bindings =
      (ofImports settings taken bound imports).imports.filterMap (·.binding) := by
  induction imports generalizing taken bound with
  | nil => rfl
  | cons i rest ih =>
    obtain ⟨first, behind⟩ := List.forall_mem_cons.1 unnamed
    rcases ofImports_cons_cases settings taken bound i rest with
      ⟨_, same, isBindings⟩ | ⟨_, _, name, _, named, isBindings⟩
    · rw [same, isBindings, List.filterMap_cons_none first, ih behind]
    · rw [named, isBindings, List.filterMap_cons, ih behind]

/-- There is an accessor if and only if a name has been given. -/
theorem accessor?_eq_none_iff {b : BoundImports} : b.accessor? = none ↔ b.bindings = [] := by
  unfold accessor? Accessor.ofBindings
  split
  · rename_i nonempty
    constructor
    · intro h
      cases h
    · exact fun h => absurd h nonempty
  · rename_i empty
    exact ⟨fun _ => Classical.not_not.1 empty, fun _ => rfl⟩

theorem bindings_of_accessor? {b : BoundImports} {a : Accessor} (h : b.accessor? = some a) :
    a.bindings = b.bindings := by
  unfold accessor? Accessor.ofBindings at h
  split at h
  · cases h
    rfl
  · cases h

end BoundImports

/-! ## Documents -/

namespace Document

variable {d : Document} {settings : Settings}

/-- There is no accessor if and only if no import is bindable. -/
theorem accessor?_eq_none_iff :
    (d.boundImports settings).accessor? = none ↔
      ∀ i ∈ d.imports, i.isBindable settings = false := by
  rw [BoundImports.accessor?_eq_none_iff, boundImports, BoundImports.bindings_ofImports_eq_nil_iff]
  simp

/-- Binding the imports of a document makes a revision. -/
theorem bindImports_revises (settings : Settings) (d : Document) :
    (d.bindImports settings).Revises d :=
  ⟨rfl, BoundImports.ofImports_unbound .., rfl⟩

theorem Laid.unbound_mem (h : d.Laid) {i : ImportDeclaration}
    (member : i ∈ (d.boundImports settings).imports) : i.unbound ∈ d.imports :=
  (bindImports_revises settings d).unbound_mem h member

/-- A name that a declaration has after binding counts. -/
theorem Laid.givenName_eq (h : d.Laid) {i : ImportDeclaration}
    (member : i ∈ (d.boundImports settings).imports) : i.givenName = i.binding := by
  rcases BoundImports.binding_of_mem member with kept | ⟨name, isName, nonempty⟩
  · rw [ImportDeclaration.givenName, (h.declared.laid i kept).unnamed]
    rfl
  · rw [ImportDeclaration.givenName, isName, Option.filter_some, if_pos (by simpa using nonempty)]

/-- A document with an accessor imports something. -/
theorem Laid.preludePoint_pos (h : d.Laid) {a : Accessor}
    (bound : (d.boundImports settings).accessor? = some a) : 0 < d.preludePoint := by
  cases imports : d.imports with
  | nil =>
    have none : (d.boundImports settings).accessor? = none := by
      rw [boundImports, imports]
      rfl
    rw [none] at bound
    cases bound
  | cons i rest =>
    have member : i ∈ d.imports := by
      rw [imports]
      exact List.mem_cons_self
    have := h.stop_le_preludePoint member
    have := (h.declared.laid i member).path_le
    have := (h.declared.laid i member).path_lt
    omega

end Document

end StyleBinding
