import StyleBinding.Proofs.Pass.Hygiene

/-!
# Which stylesheets are bound

Of the bindable imports of one path the first is given a name, and nothing else about the
imports changes. The names are distinct, no import has bound any of them, and the accessor
lists them in order. Reported are the imports that were given a name and those that the
author has bound, whose names are none of the accessor's.
-/

namespace StyleBinding

/-! ## Authors' bindings -/

namespace ImportDeclaration

/-- Whether an import is a stylesheet that the author has bound. -/
def isAuthored (settings : Settings) (i : ImportDeclaration) : Bool :=
  settings.isStylesheet i.clause.source && !i.bindsNothing

/-- How an import is reported once imports are bound: by the name that it was given, or by
the one that the author reaches it through. -/
def sheet? (settings : Settings) (i : ImportDeclaration) : Option SheetImport :=
  match i.binding with
  | some name => some ⟨i.clause.source, name, false⟩
  | none =>
    if i.isAuthored settings then some ⟨i.clause.source, i.accessName.getD [], true⟩ else none

/-- An import that binds something is reached through one of its names. -/
theorem accessName_mem {i : ImportDeclaration} (binds : i.bindsNothing = false) :
    ∃ name ∈ i.boundNames, i.accessName = some name := by
  obtain ⟨span, gap, path, ⟨source, default, namespaceName, named⟩, ofTypes, binding⟩ := i
  rw [accessName, boundNames]
  cases givenName _ with
  | some name => exact ⟨name, by simp, rfl⟩
  | none =>
    cases default with
    | some name => exact ⟨name, by simp, rfl⟩
    | none =>
      cases namespaceName with
      | some name => exact ⟨name, by simp, rfl⟩
      | none =>
        cases named with
        | nil => cases binds
        | cons first rest => exact ⟨first.bound, by simp, rfl⟩

/-- The clause of a declaration of types is not read, so it binds nothing. -/
theorem IsRead.bindsNothing {source : Text} {i : ImportDeclaration} (h : i.IsRead source)
    (ofTypes : i.ofTypes = true) : i.bindsNothing = true := by
  unfold IsRead Cursor.readClause at h
  split at h
  · have clause := congrArg Prod.fst (Except.ok.inj h)
    dsimp only at clause
    rw [ImportDeclaration.bindsNothing, ← clause]
    rfl
  · split at h
    · have noTypes := congrArg Prod.snd (Except.ok.inj h)
      rw [ofTypes] at noTypes
      cases noTypes
    · cases h
    · cases h

end ImportDeclaration

/-! ## Binding one import after another -/

namespace BoundImports

variable {settings : Settings} {taken bound : List Text} {imports : List ImportDeclaration}

theorem length_ofImports :
    (ofImports settings taken bound imports).imports.length = imports.length := by
  have lengths := congrArg List.length (ofImports_unbound settings taken bound imports)
  rwa [List.length_map, List.length_map] at lengths

/-- Whether an import is bindable and its path has been bound neither before nor by the
imports in front of it. -/
structure IsNew (settings : Settings) (bound : List Text) (before : List ImportDeclaration)
    (i : ImportDeclaration) : Prop where
  bindable : i.isBindable settings = true
  unbound : i.clause.source ∉ bound
  first : ∀ j ∈ before, j.isBindable settings = true → j.clause.source ≠ i.clause.source

section IsNew

variable {i j : ImportDeclaration} {before : List ImportDeclaration}

/-- An import that is passed over is in the way of none that is not passed over itself. -/
theorem isNew_cons_of_passed (passed : j.isBindable settings = true → j.clause.source ∈ bound) :
    IsNew settings bound (j :: before) i ↔ IsNew settings bound before i := by
  refine ⟨fun new => ⟨new.bindable, new.unbound, (List.forall_mem_cons.1 new.first).2⟩,
    fun new => ⟨new.bindable, new.unbound, List.forall_mem_cons.2 ⟨fun bindable same => ?_,
      new.first⟩⟩⟩
  exact new.unbound (same ▸ passed bindable)

/-- The path of an import that is given a name is bound from there on. -/
theorem isNew_cons_of_bindable (bindable : j.isBindable settings = true) :
    IsNew settings bound (j :: before) i ↔
      IsNew settings (j.clause.source :: bound) before i := by
  constructor
  · intro new
    obtain ⟨apart, first⟩ := List.forall_mem_cons.1 new.first
    have unbound : i.clause.source ∉ j.clause.source :: bound :=
      List.not_mem_cons_of_ne_of_not_mem (apart bindable).symm new.unbound
    exact ⟨new.bindable, unbound, first⟩
  · intro new
    have apart : j.clause.source ≠ i.clause.source := (List.ne_of_not_mem_cons new.unbound).symm
    exact ⟨new.bindable, List.not_mem_of_not_mem_cons new.unbound,
      List.forall_mem_cons.2 ⟨fun _ => apart, new.first⟩⟩

end IsNew

/-- An import is given a name if its path is new, and stays as it is if not. -/
theorem getElem?_ofImports {k : Nat} {i : ImportDeclaration} (isAt : imports[k]? = some i) :
    (IsNew settings bound (imports.take k) i ∧ ∃ name,
      (ofImports settings taken bound imports).imports[k]? =
        some { i with binding := some name }) ∨
    (¬ IsNew settings bound (imports.take k) i ∧
      (ofImports settings taken bound imports).imports[k]? = some i) := by
  induction imports generalizing taken bound k with
  | nil => cases isAt
  | cons j rest ih =>
    rcases ofImports_cons_cases settings taken bound j rest with
      ⟨passed, same, _⟩ | ⟨bindable, new, name, _, named, _⟩
    · rw [same]
      cases k with
      | zero =>
        cases isAt
        exact .inr ⟨fun new => new.unbound (passed new.bindable), rfl⟩
      | succ k =>
        rw [List.take_succ_cons, isNew_cons_of_passed passed]
        exact ih isAt
    · rw [named]
      cases k with
      | zero =>
        cases isAt
        exact .inl ⟨⟨bindable, new, nofun⟩, name, rfl⟩
      | succ k =>
        rw [List.take_succ_cons, isNew_cons_of_bindable bindable]
        exact ih isAt

/-- Every name is taken once it is given. -/
theorem bindings_nodup : (ofImports settings taken bound imports).bindings.Nodup := by
  induction imports generalizing taken bound with
  | nil => exact List.nodup_nil
  | cons i rest ih =>
    rcases ofImports_cons_cases settings taken bound i rest with
      ⟨_, _, same⟩ | ⟨_, _, name, _, _, named⟩
    · rw [same]
      exact ih
    · rw [named]
      exact List.nodup_cons.2 ⟨fun again => bindings_fresh again List.mem_cons_self, ih⟩

/-- The reports follow the imports. -/
theorem stylesheets_eq_filterMap (unnamed : ∀ i ∈ imports, i.binding = none)
    (unread : ∀ i ∈ imports, i.ofTypes = true → i.bindsNothing = true) :
    (ofImports settings taken bound imports).stylesheets =
      (ofImports settings taken bound imports).imports.filterMap (·.sheet? settings) := by
  have ofKept {i : ImportDeclaration} (unnamed : i.binding = none) : i.sheet? settings =
      if i.isAuthored settings then some ⟨i.clause.source, i.accessName.getD [], true⟩
      else none := by
    rw [ImportDeclaration.sheet?, unnamed]
  fun_induction ofImports settings taken bound imports with
  | case1 => rfl
  | case2 taken bound i rest path passed ih =>
    obtain ⟨first, unnamed⟩ := List.forall_mem_cons.1 unnamed
    obtain ⟨ofTypes, unread⟩ := List.forall_mem_cons.1 unread
    have notAuthored : i.isAuthored settings = false := by
      rw [Bool.or_eq_true, Bool.not_eq_true'] at passed
      rw [ImportDeclaration.isAuthored, Bool.and_eq_false_iff, Bool.not_eq_false']
      exact passed.symm.imp_right ofTypes
    have notReported : i.sheet? settings = none := by
      rw [ofKept first, notAuthored, if_neg Bool.false_ne_true]
    exact (ih unnamed unread).trans (List.filterMap_cons_none notReported).symm
  | case3 taken bound i rest path stylesheet binds ih =>
    obtain ⟨first, unnamed⟩ := List.forall_mem_cons.1 unnamed
    have authored : i.isAuthored settings = true := by
      rw [Bool.or_eq_true, not_or, Bool.not_eq_true', Bool.not_eq_false] at stylesheet
      rw [ImportDeclaration.isAuthored, stylesheet.2, binds]
      rfl
    have reported := ofKept first
    rw [authored, if_pos rfl] at reported
    exact (congrArg _ (ih unnamed (List.forall_mem_cons.1 unread).2)).trans
      (List.filterMap_cons_some reported).symm
  | case4 taken bound i rest path _ binds again ih =>
    obtain ⟨first, unnamed⟩ := List.forall_mem_cons.1 unnamed
    have notAuthored : i.isAuthored settings = false := by
      rw [ImportDeclaration.isAuthored, eq_false_of_ne_true binds, Bool.and_false]
    have notReported : i.sheet? settings = none := by
      rw [ofKept first, notAuthored, if_neg Bool.false_ne_true]
    exact (ih unnamed (List.forall_mem_cons.1 unread).2).trans
      (List.filterMap_cons_none notReported).symm
  | case5 taken bound i rest path _ _ new name ih =>
    have named : ({ i with binding := some name } : ImportDeclaration).sheet? settings =
        some ⟨path, name, false⟩ := rfl
    have rest := ih (List.forall_mem_cons.1 unnamed).2 (List.forall_mem_cons.1 unread).2
    exact (congrArg _ rest).trans (List.filterMap_cons_some named).symm

/-- The accessor lists the bindings, if there are any. -/
theorem accessor?_map_bindings (b : BoundImports) :
    b.accessor?.map (·.bindings) = if b.bindings = [] then none else some b.bindings := by
  cases isAccessor : b.accessor? with
  | none => rw [if_pos (accessor?_eq_none_iff.1 isAccessor), Option.map_none]
  | some a =>
    have some : b.bindings ≠ [] := fun empty => by
      rw [accessor?_eq_none_iff.2 empty] at isAccessor
      cases isAccessor
    rw [if_neg some, Option.map_some, bindings_of_accessor? isAccessor]

end BoundImports

/-! ## Documents -/

namespace Document

variable {d : Document} {settings : Settings}

/-- Whether an import stands at a position and is the first bindable one of its path. -/
structure IsFirst (settings : Settings) (d : Document) (k : Nat) (i : ImportDeclaration) :
    Prop where
  isAt : d.imports[k]? = some i
  bindable : i.isBindable settings = true
  first : ∀ j ∈ d.imports.take k, j.isBindable settings = true →
    j.clause.source ≠ i.clause.source

/-- The names that imports are given. -/
def givenNames (settings : Settings) (d : Document) : List Text :=
  (d.bindImports settings).imports.filterMap (·.binding)

/-- What binding the imports of a document does: the first bindable import of each path gets
a name of its own, the accessor reaches these names and no others, they are reported among the
stylesheets that the author has bound, and everything else stays as it is. -/
structure BindsFirst (settings : Settings) (d : Document) : Prop where
  unnamed : ∀ i ∈ d.imports, i.binding = none
  length : (d.bindImports settings).imports.length = d.imports.length
  named : ∀ k i, d.IsFirst settings k i →
    ∃ name, (d.bindImports settings).imports[k]? = some { i with binding := some name }
  kept : ∀ k i, d.imports[k]? = some i → ¬ d.IsFirst settings k i →
    (d.bindImports settings).imports[k]? = some i
  distinct : (d.givenNames settings).Nodup
  fresh : ∀ name ∈ d.givenNames settings, name ∉ d.importedNames
  accessor : (d.boundImports settings).accessor?.map (·.bindings) =
    if d.givenNames settings = [] then none else some (d.givenNames settings)
  reported : (d.boundImports settings).stylesheets =
    (d.bindImports settings).imports.filterMap (·.sheet? settings)
  apart : ∀ s ∈ (d.boundImports settings).stylesheets, s.byAuthor = true →
    s.name ∉ d.givenNames settings
  source : (d.bindImports settings).source = d.source
  elements : (d.bindImports settings).elements = d.elements
  prelude : (d.bindImports settings).prelude = d.prelude

/-- An import of a document is given a name if it is the first of its path, and stays as it
is if not. -/
theorem getElem?_bindImports {k : Nat} {i : ImportDeclaration} (isAt : d.imports[k]? = some i) :
    (d.IsFirst settings k i ∧ ∃ name,
      (d.bindImports settings).imports[k]? = some { i with binding := some name }) ∨
    (¬ d.IsFirst settings k i ∧ (d.bindImports settings).imports[k]? = some i) := by
  have isFirst_iff : d.IsFirst settings k i ↔
      BoundImports.IsNew settings [] (d.imports.take k) i :=
    ⟨fun first => ⟨first.bindable, List.not_mem_nil, first.first⟩,
      fun new => ⟨isAt, new.bindable, new.first⟩⟩
  rw [isFirst_iff]
  exact BoundImports.getElem?_ofImports isAt

theorem Laid.givenNames_eq (h : d.Laid) :
    d.givenNames settings = (d.boundImports settings).bindings :=
  (BoundImports.bindings_eq_filterMap fun i member => (h.declared.laid i member).unnamed).symm

theorem Laid.givenNames_fresh (h : d.Laid) :
    ∀ name ∈ d.givenNames settings, name ∉ d.importedNames := by
  intro name member
  rw [h.givenNames_eq] at member
  exact BoundImports.bindings_fresh member

/-- Imports that the author has bound are reported under names that are not given. -/
theorem Laid.authored_apart (h : d.Laid) {s : SheetImport}
    (member : s ∈ (d.bindImports settings).imports.filterMap (·.sheet? settings))
    (byAuthor : s.byAuthor = true) : s.name ∉ d.givenNames settings := by
  obtain ⟨i, memberI, reported⟩ := List.mem_filterMap.1 member
  rw [ImportDeclaration.sheet?] at reported
  split at reported
  · cases reported
    cases byAuthor
  · rename_i unnamed
    split at reported
    · rename_i authored
      cases reported
      rw [ImportDeclaration.isAuthored, Bool.and_eq_true, Bool.not_eq_true'] at authored
      obtain ⟨name, isBound, access⟩ := ImportDeclaration.accessName_mem authored.2
      rw [access, Option.getD_some]
      intro given
      refine h.givenNames_fresh name given (List.mem_flatMap.2 ⟨i, ?_, isBound⟩)
      refine (BoundImports.binding_of_mem memberI).resolve_right fun ⟨name, isNamed, _⟩ => ?_
      rw [unnamed] at isNamed
      cases isNamed
    · cases reported

/-- Of the bindable imports of each path the first is bound, under a name that nothing else
has, and nothing else is changed. -/
theorem bindImports_bindsFirst {source : Text} (read : parse source = .ok d)
    (settings : Settings) : d.BindsFirst settings := by
  have laid := laid_of_parse read
  have unnamed : ∀ i ∈ d.imports, i.binding = none := fun i member =>
    (laid.declared.laid i member).unnamed
  have reported : (d.boundImports settings).stylesheets =
      (d.bindImports settings).imports.filterMap (·.sheet? settings) :=
    BoundImports.stylesheets_eq_filterMap unnamed fun i member =>
      (isRead_of_parse read i member).bindsNothing
  constructor
  case unnamed => exact unnamed
  case length => exact BoundImports.length_ofImports
  case named =>
    intro k i first
    rcases getElem?_bindImports first.isAt with ⟨_, named⟩ | ⟨others, _⟩
    · exact named
    · exact absurd first others
  case kept =>
    intro k i isAt others
    rcases getElem?_bindImports isAt with ⟨first, _⟩ | ⟨_, kept⟩
    · exact absurd first others
    · exact kept
  case distinct => exact laid.givenNames_eq ▸ BoundImports.bindings_nodup
  case fresh => exact laid.givenNames_fresh
  case accessor =>
    rw [BoundImports.accessor?_map_bindings, laid.givenNames_eq]
  case reported => exact reported
  case apart => exact fun s member => laid.authored_apart (reported ▸ member)
  case source => rfl
  case elements => rfl
  case prelude => rfl

/-- Stylesheets of one stem in two directories, one of them imported twice in different
spellings, between imports that the author has bound. -/
def selectedSource : Text :=
  "import aStyleSheet2 from './t.css';\nimport './a.css';\nimport type T from './u.css';\n" ++
    "import './x/a.css';\nimport \"./\\x61.css\";\nimport * as s from './a.css';\n"

theorem bindImports_bindsFirst_selected :
    ∃ d, parse selectedSource = .ok d ∧ d.BindsFirst (.default []) ∧
      (d.bindImports (.default [])).imports.map (·.binding) =
        [none, some ("aStyleSheet" : Text), none, some ("aStyleSheet3" : Text), none, none] ∧
      (d.boundImports (.default [])).stylesheets.map (·.name) =
        [("aStyleSheet2" : Text), "aStyleSheet", "aStyleSheet3", "s"] := by
  obtain ⟨d, read, names⟩ := exists_ok_of_decide (x := parse selectedSource)
    (p := fun d => (d.bindImports (.default [])).imports.map (·.binding) =
        [none, some ("aStyleSheet" : Text), none, some ("aStyleSheet3" : Text), none, none] ∧
      (d.boundImports (.default [])).stylesheets.map (·.name) =
        [("aStyleSheet2" : Text), "aStyleSheet", "aStyleSheet3", "s"]) (by decide +kernel)
  exact ⟨d, read, bindImports_bindsFirst read (.default []), names⟩

end Document

end StyleBinding
