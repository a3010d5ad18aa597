import StyleBinding.Proofs.Pass.Hygiene
import StyleBinding.Proofs.Pass.Identifiers

/-!
# Names by the path alone

The name that a stylesheet is given depends on its path without query and fragment and on
the names taken. It is the name made of the path if that is free, and the same with the
least number from two on that makes it free if not. No name in the way is met twice, so
the search is over after as many steps as there are names taken. The names of the pass's
own statements are not made of any path.
-/

namespace StyleBinding

open Vocabulary

variable {name path : Text} {taken : List Text} {k : Nat}

/-! ## The first free candidate -/

theorem getElem_candidates_succ {i : Nat} (h : i + 1 < (candidates name taken).length) :
    (candidates name taken)[i + 1] = name ++ Text.ofNat (2 + i) := by
  simp [candidates]

/-- The free name is the first candidate that is not taken. -/
theorem exists_getElem_candidates (name : Text) (taken : List Text) :
    ∃ i, ∃ h : i < (candidates name taken).length,
      (candidates name taken)[i] = freeName name taken ∧
      ∀ j, ∀ before : j < i, (candidates name taken)[j] ∈ taken := by
  cases found : (candidates name taken).find? fun n => !taken.contains n with
  | some free =>
    obtain ⟨_, i, h, same, first⟩ := List.find?_eq_some_iff_getElem.1 found
    refine ⟨i, h, ?_, fun j before => by simpa using first j before⟩
    rw [same, freeName, found, Option.getD_some]
  | none =>
    have isTaken : name ∈ taken := by
      simpa using List.find?_eq_none.1 found name List.mem_cons_self
    have isFree := freeName_not_mem name taken
    rw [freeName, found, Option.getD_none] at isFree
    exact absurd isTaken isFree

theorem freeName_of_not_mem (free : name ∉ taken) : freeName name taken = name := by
  obtain ⟨i, h, same, first⟩ := exists_getElem_candidates name taken
  cases i with
  | zero => exact same.symm
  | succ i => exact absurd (first 0 i.succ_pos) free

/-- A name that is taken is numbered with the least number from two on that makes it free. -/
theorem freeName_of_mem (isTaken : name ∈ taken) :
    ∃ k, 2 ≤ k ∧ k ≤ taken.length + 1 ∧ freeName name taken = name ++ Text.ofNat k ∧
      name ++ Text.ofNat k ∉ taken ∧ ∀ j, 2 ≤ j → j < k → name ++ Text.ofNat j ∈ taken := by
  have isFree := freeName_not_mem name taken
  obtain ⟨i, h, same, first⟩ := exists_getElem_candidates name taken
  cases i with
  | zero =>
    rw [← same] at isFree
    exact absurd isTaken isFree
  | succ i =>
    have below : i < taken.length := by simpa [candidates] using h
    rw [getElem_candidates_succ h] at same
    refine ⟨2 + i, by omega, by omega, same.symm, same ▸ isFree, fun j two less => ?_⟩
    obtain ⟨m, rfl⟩ := Nat.exists_eq_add_of_le two
    have before : m + 1 < i + 1 := by omega
    rw [← getElem_candidates_succ (before.trans h)]
    exact first (m + 1) before

/-- The search for a free name ends, with the name itself or with its first free number. -/
theorem freeName_cases (name : Text) (taken : List Text) :
    name ∉ taken ∧ freeName name taken = name ∨
      name ∈ taken ∧ ∃ k, 2 ≤ k ∧ k ≤ taken.length + 1 ∧
        freeName name taken = name ++ Text.ofNat k ∧ name ++ Text.ofNat k ∉ taken ∧
        ∀ j, 2 ≤ j → j < k → name ++ Text.ofNat j ∈ taken := by
  by_cases isTaken : name ∈ taken
  · exact .inr ⟨isTaken, freeName_of_mem isTaken⟩
  · exact .inl ⟨isTaken, freeName_of_not_mem isTaken⟩

/-! ## What names end with -/

/-- A name made of a path ends as all of them do, unless the path has no words. -/
theorem generatedName_ending (path : Text) :
    generatedName path = "styleSheet" ∨ bindingEnding <:+ generatedName path := by
  unfold generatedName
  split
  · exact .inl (by decide)
  · exact .inr (List.suffix_append ..)

theorem append_ofNat_ne {t : Text} (noDigit : t.getLast?.any (·.isIn Char.isDigit) = false) :
    name ++ Text.ofNat k ≠ t := by
  rintro rfl
  have nonempty := Text.ofNat_ne_nil k
  have isDigit := Text.isDigit_of_mem_ofNat (List.getLast_mem nonempty)
  rw [List.getLast?_append_of_ne_nil _ nonempty, List.getLast?_eq_some_getLast nonempty,
    Option.any_some, isDigit] at noDigit
  cases noDigit

/-- No number makes a name of a path the name of something that ends in neither way. -/
theorem freeName_ne {t : Text} (noDigit : t.getLast?.any (·.isIn Char.isDigit) = false)
    (named : t ≠ "styleSheet") (ends : ¬ bindingEnding <:+ t) :
    freeName (generatedName path) taken ≠ t := by
  rcases freeName_cases (generatedName path) taken with ⟨_, same⟩ | ⟨_, k, _, _, same, _⟩
  · rw [same]
    rintro rfl
    exact (generatedName_ending path).elim named ends
  · rw [same]
    exact append_ofNat_ne noDigit

/-! ## Queries and fragments -/

/-- What follows a question mark or a number sign is left out of a path, and so is all of
it behind an earlier one. -/
theorem withoutQuery_append_mark {x : CodePoint} (isMark : (x.is '?' || x.is '#') = true)
    (query : Text) : (path ++ x :: query).withoutQuery = path.withoutQuery := by
  induction path with
  | nil =>
    rw [List.nil_append, Text.withoutQuery, List.takeWhile_cons, isMark]
    rfl
  | cons c path ih =>
    rw [Text.withoutQuery, List.cons_append, List.takeWhile_cons, Text.withoutQuery,
      List.takeWhile_cons]
    split
    · exact congrArg (c :: ·) ih
    · rfl

theorem generatedName_append_mark {x : CodePoint} (isMark : (x.is '?' || x.is '#') = true)
    (query : Text) : generatedName (path ++ x :: query) = generatedName path := by
  rw [generatedName, withoutQuery_append_mark isMark]
  rfl

/-! ## The name of a stylesheet -/

/-- The name that a stylesheet is given: that of its path, numbered if it has to be, an
identifier that is none of the constant ones, whatever query or fragment the path has. -/
theorem freeName_generatedName (path : Text) (taken : List Text) :
    let name := generatedName path
    let free := freeName name taken
    (name ∉ taken ∧ free = name ∨
      name ∈ taken ∧ ∃ k, 2 ≤ k ∧ k ≤ taken.length + 1 ∧ free = name ++ Text.ofNat k ∧
        name ++ Text.ofNat k ∉ taken ∧ ∀ j, 2 ≤ j → j < k → name ++ Text.ofNat j ∈ taken) ∧
      free.IsIdentifier ∧
      free ≠ styleSheetName ∧ free ≠ mergeName ∧ free ≠ getStyleName ∧
      ∀ query, generatedName (path ++ "?" ++ query) = name ∧
        generatedName (path ++ "#" ++ query) = name := by
  refine ⟨freeName_cases (generatedName path) taken,
    isIdentifier_freeName (isIdentifier_generatedName path) taken,
    freeName_ne (by decide) (by decide) (by decide),
    freeName_ne (by decide) (by decide) (by decide),
    freeName_ne (by decide) (by decide) (by decide), fun query => ?_⟩
  rw [List.append_assoc, List.append_assoc]
  exact ⟨generatedName_append_mark rfl query, generatedName_append_mark rfl query⟩

end StyleBinding
