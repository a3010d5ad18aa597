import Mathlib.Data.List.Nodup
import Mathlib.Data.List.Perm.Subperm
import StyleBinding.Proofs.Pass.Transformed

/-!
# Names that the pass introduces

The pass introduces a name for every stylesheet that it binds, and those of its own
statements. A generated name is one that no import binds, as far as the clauses of
imports are read: the clause of a declaration of types is not. The other names are
constants, whatever the imports bind.
-/

namespace StyleBinding

/-! ## Free names -/

namespace Text

/-- Different numbers have different digits. -/
theorem ofNat_injective : Function.Injective ofNat := by
  intro m n same
  have chars : (Nat.repr m).toList = (Nat.repr n).toList :=
    List.map_injective_iff.2 (fun _ _ => CodePoint.scalar_inj.1) same
  rw [Nat.toList_repr, Nat.toList_repr] at chars
  have digits := congrArg (Nat.ofDigitChars 10 · 0) chars
  simpa [Nat.ofDigitChars_toDigits] using digits

theorem ofNat_ne_nil (n : Nat) : ofNat n ≠ [] := by
  intro empty
  have digits := List.map_eq_nil_iff.1 empty
  rw [Nat.toList_repr] at digits
  exact Nat.toDigits_ne_nil digits

end Text

theorem candidates_nodup (name : Text) (taken : List Text) : (candidates name taken).Nodup := by
  refine List.nodup_cons.2 ⟨?_, ?_⟩
  · intro member
    obtain ⟨k, _, same⟩ := List.mem_map.1 member
    exact Text.ofNat_ne_nil k (List.append_right_eq_self.1 same)
  · refine List.Nodup.map (fun j k same => ?_) List.nodup_range'
    exact Text.ofNat_injective (List.append_cancel_left same)

/-- There are more candidates than names taken, so the first one that is free is. -/
theorem freeName_not_mem (name : Text) (taken : List Text) : freeName name taken ∉ taken := by
  rw [freeName]
  cases found : (candidates name taken).find? fun n => !taken.contains n with
  | some free => simpa using List.find?_some found
  | none =>
    have all : candidates name taken ⊆ taken := by
      intro n member
      simpa using List.find?_eq_none.1 found n member
    have le := ((candidates_nodup name taken).subperm all).length_le
    rw [candidates, List.length_cons, List.length_map, List.length_range'] at le
    exact absurd le (Nat.not_succ_le_self _)

namespace BoundImports

/-- The generated bindings are none of the names taken. -/
theorem bindings_fresh {settings : Settings} {taken bound : List Text}
    {imports : List ImportDeclaration} {name : Text}
    (member : name ∈ (ofImports settings taken bound imports).bindings) : name ∉ taken := by
  fun_induction ofImports settings taken bound imports with
  | case1 => cases member
  | case2 taken bound i rest path passed ih => exact ih member
  | case3 taken bound i rest path _ binds ih => exact ih member
  | case4 taken bound i rest path _ _ again ih => exact ih member
  | case5 taken bound i rest path _ _ new free ih =>
    rcases List.mem_cons.1 member with isFree | member
    · rw [isFree]
      exact freeName_not_mem (generatedName path) taken
    · exact fun isTaken => ih member (List.mem_cons_of_mem _ isTaken)

end BoundImports

/-! ## Introduced names -/

/-- The name that a statement declares. -/
def declaredName? (statement : Text) : Option Text :=
  let name (t : Text) : Text := t.take (Lexeme.nameLength t)
  if statement.startsWith "function " then some (name (statement.drop 9))
  else if statement.startsWith "var " then some (name (statement.drop 4))
  else none

open Vocabulary

theorem declaredName?_mergeHelper : declaredName? mergeHelper = some mergeName := by
  decide +kernel

theorem declaredName?_getStyleHelper : declaredName? getStyleHelper = some getStyleName := by
  decide +kernel

theorem declaredName?_declaration (expression : Text) :
    declaredName? (declaration expression) = some styleSheetName := rfl

/-- The names of the statements that the pass puts in. -/
def Helpers.names (h : Helpers) : List Text :=
  (if h.merge then [mergeName] else []) ++ (if h.getStyle then [getStyleName] else []) ++
    [styleSheetName]

theorem filterMap_preludeStatements (a : Accessor) (h : Helpers) :
    (preludeStatements a h).filterMap declaredName? = h.names := by
  rcases h with ⟨merge, getStyle⟩
  cases merge <;> cases getStyle <;>
    simp [preludeStatements, Helpers.names, declaredName?_mergeHelper,
      declaredName?_getStyleHelper, declaredName?_declaration]

namespace Document

/-- The names that are introduced into a module: those that its imports are given and
those that the statements behind its imports declare. -/
def introducedNames (d : Document) : List Text :=
  d.imports.filterMap (·.binding) ++ d.prelude.filterMap declaredName?

variable {d : Document} {settings : Settings} {a : Accessor}

theorem Laid.introducedNames_transform (h : d.Laid)
    (bound : (d.boundImports settings).accessor? = some a) :
    (d.transform settings).introducedNames = a.bindings ++ (d.helpers a).names := by
  have unnamed : ∀ i ∈ d.imports, i.binding = none := fun i member =>
    (h.declared.laid i member).unnamed
  rw [transform_of_accessor bound, introducedNames, BoundImports.bindings_of_accessor? bound,
    boundImports, BoundImports.bindings_eq_filterMap unnamed]
  exact congrArg _ (filterMap_preludeStatements a (d.helpers a))

theorem boundNames_subset_importedNames {i : ImportDeclaration} (member : i ∈ d.imports) :
    i.clause.boundNames ⊆ d.importedNames := by
  intro name isBound
  refine List.mem_flatMap.2 ⟨i, member, ?_⟩
  rw [ImportClause.boundNames, List.mem_append, List.mem_append] at isBound
  rw [ImportDeclaration.boundNames, List.mem_append, List.mem_append, List.mem_append]
  exact isBound.imp_left .inl

/-- The pass introduces the bindings that it generates and the constant names of its
statements. No binding is a name that an import binds which is none of types. -/
theorem transform_hygienic {source : Text} (read : parse source = .ok d)
    (bound : (d.boundImports settings).accessor? = some a) :
    (d.transform settings).introducedNames = a.bindings ++ (d.helpers a).names ∧
      ∀ name ∈ a.bindings, ∀ i ∈ d.imports, i.ofTypes = false →
        ∃ clause, ImportClause.parse (i.text source) = .ok clause ∧ name ∉ clause.boundNames := by
  refine ⟨(laid_of_parse read).introducedNames_transform bound, ?_⟩
  intro name generated i member noTypes
  refine ⟨i.clause, (isRead_of_parse read i member).parse noTypes, fun isBound => ?_⟩
  rw [BoundImports.bindings_of_accessor? bound] at generated
  exact BoundImports.bindings_fresh generated (boundNames_subset_importedNames member isBound)

/-- An import binds the name that a stylesheet would be given. -/
def takenSource : Text := "import aStyleSheet from './t';\nimport './a.css';\n"

theorem transform_hygienic_taken :
    ∃ d a i, parse takenSource = .ok d ∧ (d.boundImports (.default [])).accessor? = some a ∧
      i ∈ d.imports ∧ i.ofTypes = false ∧
      (d.transform (.default [])).introducedNames = ["aStyleSheet2", "_styleSheet"] ∧
      ∃ clause, ImportClause.parse (i.text takenSource) = .ok clause ∧
        clause.boundNames = ["aStyleSheet"] ∧ ("aStyleSheet2" : Text) ∉ clause.boundNames := by
  have found : ((parse takenSource).toOption.any fun d =>
      (d.boundImports (.default [])).accessor?.any fun a => d.imports.any fun i =>
        decide (i.ofTypes = false ∧ i.clause.boundNames = ["aStyleSheet"] ∧
          a.bindings ++ (d.helpers a).names = ["aStyleSheet2", "_styleSheet"] ∧
          ("aStyleSheet2" : Text) ∈ a.bindings)) = true := by
    decide +kernel
  obtain ⟨d, read, found⟩ := (Option.any_eq_true _ _).1 found
  obtain ⟨a, bound, found⟩ := (Option.any_eq_true _ _).1 found
  obtain ⟨i, member, holds⟩ := List.any_eq_true.1 found
  obtain ⟨noTypes, names, introduced, generated⟩ := of_decide_eq_true holds
  have read := parse_of_toOption read
  obtain ⟨isIntroduced, fresh⟩ := transform_hygienic read bound
  obtain ⟨clause, isClause, isFree⟩ := fresh _ generated i member noTypes
  have same := ((isRead_of_parse read i member).parse noTypes).symm.trans isClause
  cases same
  exact ⟨d, a, i, read, bound, member, noTypes, isIntroduced.trans introduced, _, isClause, names,
    isFree⟩

/-- An import binds the constant name of the resolved stylesheet. -/
def constantSource : Text := "import _styleSheet from './b';\nimport './a.css';\n"

/-- The constant names are introduced even if an import binds them. -/
theorem constantSource_clashes :
    ∃ d a i clause, parse constantSource = .ok d ∧
      (d.boundImports (.default [])).accessor? = some a ∧ i ∈ d.imports ∧
      ImportClause.parse (i.text constantSource) = .ok clause ∧
      ∃ name ∈ (d.transform (.default [])).introducedNames, name ∈ clause.boundNames := by
  have found : ((parse constantSource).toOption.any fun d =>
      (d.boundImports (.default [])).accessor?.any fun _ => d.imports.any fun i =>
        decide (i.ofTypes = false ∧ ∃ name ∈ (d.transform (.default [])).introducedNames,
          name ∈ i.clause.boundNames)) = true := by
    decide +kernel
  obtain ⟨d, read, found⟩ := (Option.any_eq_true _ _).1 found
  obtain ⟨a, bound, found⟩ := (Option.any_eq_true _ _).1 found
  obtain ⟨i, member, holds⟩ := List.any_eq_true.1 found
  obtain ⟨noTypes, clash⟩ := of_decide_eq_true holds
  have read := parse_of_toOption read
  exact ⟨d, a, i, i.clause, read, bound, member,
    (isRead_of_parse read i member).parse noTypes, clash⟩

end Document

end StyleBinding
