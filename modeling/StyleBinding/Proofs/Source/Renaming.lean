import Mathlib.Data.List.Forall2
import StyleBinding.Document.Lead
import StyleBinding.Proofs.Source.Alike
import StyleBinding.Proofs.Text.Cutting

/-!
# Names in place of names

When a name in a text is replaced by another of the same length, the marks of the text stay
where they are. A slash that opens no regular expression opens none then.
-/

namespace StyleBinding

open Lexeme

/-- A text that is one name. -/
structure Text.IsName (t : Text) : Prop where
  nonempty : t ≠ []
  noDigit : t.head?.any (·.isDigit) = false
  whole : nameLength t = t.length

namespace Text.IsName

variable {t u : Text} {x : CodePoint}

theorem noDecimal (h : t.IsName) : t.head?.any (·.isDecimal) = false := by
  by_contra isDecimal
  have whole := h.whole
  rw [nameLength_eq_ite, if_pos (Bool.not_eq_false _ ▸ isDecimal)] at whole
  exact h.nonempty (List.length_eq_zero_iff.1 whole.symm)

theorem forall_isName (h : t.IsName) : ∀ x ∈ t, x.isName = true := by
  have whole := h.whole
  rw [nameLength_eq_ite, h.noDecimal, if_neg Bool.false_ne_true, Text.countWhile_eq] at whole
  have all := (List.takeWhile_prefix (l := t) (·.isName)).eq_of_length whole
  exact List.takeWhile_eq_self_iff.1 all

theorem exists_cons (h : t.IsName) :
    ∃ x s, t = x :: s ∧ x.isName = true ∧ x.isDigit = false ∧ x.isDecimal = false := by
  obtain ⟨x, s, rfl⟩ := List.exists_cons_of_ne_nil h.nonempty
  exact ⟨x, s, rfl, h.forall_isName x List.mem_cons_self, h.noDigit, h.noDecimal⟩

/-- A name ends in front of a code point that belongs to no name. -/
theorem nameLength_append (h : t.IsName) (ends : u.head?.any (·.isName) = false) :
    nameLength (t ++ u) = t.length := by
  have first : (t ++ u).head?.any (·.isDecimal) = false := by
    obtain ⟨x, s, rfl, _, _, noDecimal⟩ := h.exists_cons
    exact noDecimal
  have run : (t ++ u).takeWhile (·.isName) = t ++ u.takeWhile (·.isName) :=
    List.takeWhile_append_of_pos h.forall_isName
  have none := (Text.countWhile_eq_zero_iff (p := (·.isName)) u).2 ends
  rw [Text.countWhile_eq] at none
  rw [nameLength_eq_ite, first, if_neg Bool.false_ne_true, Text.countWhile_eq, run,
    List.length_append, none, Nat.add_zero]

theorem startsNumber_append (h : t.IsName) (u : Text) : Lead.startsNumber (t ++ u) = false := by
  obtain ⟨x, s, rfl, isName, noDigit, _⟩ := h.exists_cons
  have noPoint : x.is '.' = false := by
    rw [Bool.eq_false_iff]
    intro same
    rw [CodePoint.is_iff.1 same] at isName
    cases isName
  rw [List.cons_append, Lead.startsNumber, noDigit, noPoint]
  rfl

/-- The name at the head of a text, in front of what belongs to none. -/
theorem of_nameLength (noNumber : Lead.startsNumber t = false) (pos : 0 < nameLength t) :
    IsName (t.take (nameLength t)) ∧ (t.drop (nameLength t)).head?.any (·.isName) = false := by
  obtain _ | ⟨x, s⟩ := t
  · cases pos
  have noDecimal : x.isDecimal = false := by
    by_contra isDecimal
    rw [nameLength_eq_ite, List.head?_cons, Option.any_some,
      if_pos (Bool.not_eq_false _ ▸ isDecimal)] at pos
    cases pos
  have count : nameLength (x :: s) = Text.countWhile (·.isName) (x :: s) := by
    rw [nameLength_eq_ite, List.head?_cons, Option.any_some, noDecimal, if_neg Bool.false_ne_true]
  have isName : x.isName = true := by
    by_contra noName
    rw [count, Text.countWhile, if_neg noName] at pos
    cases pos
  have run : (x :: s).take (nameLength (x :: s)) = x :: s.takeWhile (·.isName) := by
    rw [count, Text.countWhile_eq]
    exact (List.prefix_iff_eq_take.1 (List.takeWhile_prefix _)).symm.trans
      (List.takeWhile_cons_of_pos isName)
  rw [Lead.startsNumber, Bool.or_eq_false_iff] at noNumber
  refine ⟨⟨run ▸ List.cons_ne_nil _ _, run ▸ noNumber.1, ?_⟩, ?_⟩
  · rw [run, nameLength_eq_ite, List.head?_cons, Option.any_some, noDecimal,
      if_neg Bool.false_ne_true, Text.countWhile, if_pos isName, Text.countWhile_eq,
      List.takeWhile_eq_self_iff.2 fun y member => List.mem_takeWhile_imp member, List.length_cons]
  · refine Text.head_any_of_countWhile (u := (x :: s).take (nameLength (x :: s))) ?_
    rw [List.take_append_drop, ← count, List.length_take_of_le (nameLength_le _)]

end Text.IsName

/-- Texts that differ in the code points of names only. -/
def Text.Renames : Text → Text → Prop :=
  List.Forall₂ fun x y => x = y ∨ x.isName = true ∧ y.isName = true

namespace Text.Renames

variable {s t : Text}

theorem refl (t : Text) : t.Renames t := List.forall₂_same.2 fun _ _ => .inl rfl

theorem of_names (names : ∀ x ∈ t, x.isName = true) (names' : ∀ x ∈ s, x.isName = true)
    (length : t.length = s.length) : t.Renames s :=
  List.forall₂_iff_zip.2 ⟨length, fun inZip =>
    .inr ⟨names _ (List.of_mem_zip inZip).1, names' _ (List.of_mem_zip inZip).2⟩⟩

/-- A mark stands in both texts or in neither. -/
theorem is_eq {x y : CodePoint} (h : x = y ∨ x.isName = true ∧ y.isName = true) {c : Char}
    (mark : (CodePoint.scalar c).isName = false) : y.is c = x.is c := by
  rcases h with rfl | ⟨isName, isName'⟩
  · rfl
  · have other {z : CodePoint} (isName : z.isName = true) : z.is c = false := by
      rw [Bool.eq_false_iff]
      intro same
      rw [CodePoint.is_iff.1 same, mark] at isName
      cases isName
    rw [other isName, other isName']

theorem regexTail?_eq (h : t.Renames s) (inBrackets : Bool) :
    regexTail? inBrackets s = regexTail? inBrackets t := by
  induction size : t.length using Nat.strongRecOn generalizing t s inBrackets with
  | _ n ih =>
    cases h with
    | nil => rfl
    | @cons x y t s first behind =>
      have tails (b : Bool) : regexTail? b s = regexTail? b t :=
        ih t.length (by rw [← size, List.length_cons]; omega) behind b rfl
      have feed : s.head?.any (·.is '\n') = t.head?.any (·.is '\n') := by
        cases behind with
        | nil => rfl
        | cons second => exact is_eq second (by decide)
      have escaped :
          s.tail?.bind (regexTail? inBrackets) = t.tail?.bind (regexTail? inBrackets) := by
        cases behind with
        | nil => rfl
        | @cons _ _ t s _ behind =>
          exact ih t.length (by rw [← size, List.length_cons, List.length_cons]; omega) behind
            inBrackets rfl
      rw [regexTail?_cons, regexTail?_cons, is_eq first (c := '\n') (by decide),
        is_eq first (c := '\\') (by decide), is_eq first (c := ']') (by decide),
        is_eq first (c := '/') (by decide), is_eq first (c := '[') (by decide), tails, tails, feed,
        escaped]

theorem regexLength?_eq_none (h : t.Renames s) (noRegex : regexLength? t = none) :
    regexLength? s = none := by
  cases h with
  | nil => rfl
  | @cons x y t s first behind =>
    cases slash : y.is '/' with
    | false =>
      rw [regexLength?.eq_def]
      split
      · rename_i whole
        cases whole
        cases slash
      · rfl
    | true =>
      obtain rfl := CodePoint.is_iff.1 slash
      obtain rfl : x = .scalar '/' := first.resolve_right fun names => absurd names.2 (by decide)
      cases behind with
      | nil => rfl
      | cons second behind =>
        have tails := regexTail?_eq (.cons second behind) false
        simp only [regexLength?, is_eq second (c := '/') (by decide),
          is_eq second (c := '*') (by decide)] at noRegex ⊢
        split
        · rfl
        · rename_i noComment
          rw [if_neg noComment, Option.map_eq_none_iff] at noRegex
          rw [Option.map_eq_none_iff, tails, noRegex]

end Text.Renames

end StyleBinding
