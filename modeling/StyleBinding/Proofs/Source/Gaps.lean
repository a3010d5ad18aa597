import Mathlib.Data.List.Infix
import StyleBinding.Proofs.Source.Separators

/-!
# Gaps between tokens

The tokens of import clauses and values stand apart by separators and comments.
`IsGap gap behind` says of a text that it is made of these, where `behind` stands
behind it: whether a line comment ends is seen only there. What is skipped is a gap,
and a gap is skipped whole in front of a text that begins with none.
-/

namespace StyleBinding

open Cursor

/-! ## First occurrences -/

namespace Text

variable {pattern t : Text} {n : Nat}

/-- A first occurrence: no other ends in front of the last code point of it. -/
theorem offsetOf?_eq_some_iff (nonempty : pattern ≠ []) :
    offsetOf? pattern t = some n ↔ ∃ body behind, t = body ++ (pattern ++ behind) ∧
      body.length = n ∧ ¬ pattern <:+: body ++ pattern.dropLast := by
  have length : pattern.dropLast.length + 1 = pattern.length := by
    have := List.length_pos_iff.2 nonempty
    rw [List.length_dropLast]
    omega
  induction t generalizing n with
  | nil =>
    rw [offsetOf?, if_neg (by simpa using nonempty)]
    refine ⟨fun none => absurd none.symm (Option.some_ne_none n), ?_⟩
    rintro ⟨body, behind, same, -, -⟩
    simp [nonempty] at same
  | cons c t ih =>
    rw [offsetOf?]
    split
    · rename_i head
      have head := List.isPrefixOf_iff_prefix.1 head
      constructor
      · rintro ⟨⟩
        obtain ⟨behind, same⟩ := head
        refine ⟨[], behind, same.symm, rfl, fun inside => ?_⟩
        exact absurd inside.length_le (Nat.not_le_of_lt (Nat.lt_of_succ_le (Nat.le_of_eq length)))
      · rintro ⟨_ | ⟨b, body⟩, behind, same, rfl, first⟩
        · rfl
        · -- The pattern would be seen already in front of where it is said to stand.
          refine absurd (List.IsPrefix.isInfix ?_) first
          refine List.prefix_of_prefix_length_le head ?_ ?_
          · rw [same]
            exact (List.prefix_append_right_inj _).2
              ((List.dropLast_prefix pattern).trans (List.prefix_append ..))
          · rw [List.length_append, List.length_cons]
            omega
    · rename_i noHead
      rw [List.isPrefixOf_iff_prefix] at noHead
      rw [Option.map_eq_some_iff]
      constructor
      · rintro ⟨m, found, rfl⟩
        obtain ⟨body, behind, rfl, rfl, first⟩ := ih.1 found
        refine ⟨c :: body, behind, rfl, rfl, fun inside => ?_⟩
        rcases List.infix_cons_iff.1 inside with isPrefix | inside
        · refine noHead (isPrefix.trans ?_)
          exact (List.prefix_append_right_inj (c :: body)).2
            ((List.dropLast_prefix pattern).trans (List.prefix_append ..))
        · exact first inside
      · rintro ⟨_ | ⟨b, body⟩, behind, same, rfl, first⟩
        · exact absurd ⟨behind, same.symm⟩ noHead
        · cases same
          refine ⟨body.length, ih.2 ⟨body, behind, rfl, rfl, fun inside => first ?_⟩, rfl⟩
          exact inside.trans (List.suffix_cons c _).isInfix

theorem offsetOf?_isSome_iff : (offsetOf? pattern t).isSome = true ↔ pattern <:+: t := by
  induction t with
  | nil =>
    rw [offsetOf?]
    cases pattern <;> simp
  | cons c t ih =>
    rw [offsetOf?, List.infix_cons_iff, ← List.isPrefixOf_iff_prefix]
    split
    · rename_i head
      simp [head]
    · rename_i noHead
      rw [Option.isSome_map, ih]
      simp [noHead]

end Text

/-! ## Comments -/

/-- A comment and what stands behind it. A line comment goes on up to a line feed or
to the end, and a block comment up to the first closing mark. -/
inductive IsComment : Text → Text → Prop
  | line {body behind : Text} : .scalar '\n' ∉ body →
    (behind = [] ∨ behind.head? = some (.scalar '\n')) → IsComment (("//" : Text) ++ body) behind
  | block {body behind : Text} : ¬ ("*/" : Text) <:+: body ++ ("*" : Text) →
    IsComment (("/*" : Text) ++ (body ++ ("*/" : Text))) behind

namespace IsComment

variable {raw behind t : Text} {n : Nat}

/-- A comment is read as one. -/
theorem commentLength?_eq (h : IsComment raw behind) :
    commentLength? (raw ++ behind) = some raw.length := by
  cases h with
  | @line body _ noFeed ends =>
    have run : Text.countWhile (!·.is '\n') (("//" : Text) ++ body ++ behind) =
        (("//" : Text) ++ body).length := by
      have goesOn : ∀ x ∈ ("//" : Text) ++ body, (!x.is '\n') = true := by
        intro x member
        rw [Bool.not_eq_true', Bool.eq_false_iff]
        intro isFeed
        rw [CodePoint.is_iff.1 isFeed] at member
        rcases List.mem_append.1 member with inMark | inBody
        · exact absurd inMark (by decide)
        · exact noFeed inBody
      have stops : behind.takeWhile (!·.is '\n') = [] := by
        rcases ends with rfl | isFeed
        · rfl
        · obtain ⟨u, rfl⟩ := List.head?_eq_some_iff.1 isFeed
          rfl
      rw [Text.countWhile_eq, List.takeWhile_append_of_pos goesOn, stops, List.append_nil]
    have opens : Text.startsWith (("//" : Text) ++ body ++ behind) "//" = true := by
      rw [List.append_assoc]
      exact List.isPrefixOf_iff_prefix.2 (List.prefix_append ..)
    rw [commentLength?, if_pos opens, run]
  | @block body _ first =>
    have closes : Text.offsetOf? "*/" (body ++ (("*/" : Text) ++ behind)) = some body.length :=
      (Text.offsetOf?_eq_some_iff (by decide)).2 ⟨body, behind, rfl, rfl, first⟩
    have mark : (("/*" : Text) ++ (body ++ ("*/" : Text)) ++ behind).drop 2 =
        body ++ (("*/" : Text) ++ behind) := by
      rw [List.append_assoc, List.append_assoc]
      rfl
    rw [commentLength?, if_neg (by simp [Text.startsWith, Text.ofString]), if_pos, mark, closes]
    · simp [Text.ofString]
    · rw [List.append_assoc]
      exact List.isPrefixOf_iff_prefix.2 (List.prefix_append ..)

/-- What is read as a comment is one. -/
theorem of_commentLength? (h : commentLength? t = some n) : IsComment (t.take n) (t.drop n) := by
  unfold commentLength? at h
  split at h
  · rename_i opens
    obtain ⟨u, rfl⟩ := List.isPrefixOf_iff_prefix.1 opens
    cases h
    have whole : Text.countWhile (!·.is '\n') (("//" : Text) ++ u) =
        Text.countWhile (!·.is '\n') u + 2 := rfl
    have split : (("//" : Text) ++ u).take (Text.countWhile (!·.is '\n') u + 2) =
        ("//" : Text) ++ u.takeWhile (!·.is '\n') := by
      rw [Text.countWhile_eq]
      change .scalar '/' :: .scalar '/' :: u.take (u.takeWhile _).length = _
      rw [← List.prefix_iff_eq_take.1 (List.takeWhile_prefix _)]
      rfl
    have behind : (("//" : Text) ++ u).drop (Text.countWhile (!·.is '\n') u + 2) =
        u.dropWhile (!·.is '\n') := by
      have whole := congrArg (List.drop (u.takeWhile (!·.is '\n')).length)
        (List.takeWhile_append_dropWhile (p := (!·.is '\n')) (l := u))
      rw [List.drop_left] at whole
      rw [Text.countWhile_eq]
      exact whole.symm
    rw [whole, split, behind]
    refine .line (fun isFeed => ?_) ?_
    · have := List.mem_takeWhile_imp isFeed
      exact absurd this (by decide)
    · cases left : u.dropWhile (!·.is '\n') with
      | nil => exact .inl rfl
      | cons x v =>
        have := List.head_dropWhile_not (!·.is '\n') (l := u) (by simp [left])
        simp only [left, List.head_cons, Bool.not_eq_false', CodePoint.is_iff] at this
        exact .inr (congrArg some this)
  · split at h
    · rename_i opens
      obtain ⟨u, rfl⟩ := List.isPrefixOf_iff_prefix.1 opens
      obtain ⟨m, closes, rfl⟩ := Option.map_eq_some_iff.1 h
      obtain ⟨body, behind, same, rfl, first⟩ :=
        (Text.offsetOf?_eq_some_iff (by decide)).1 closes
      change u = _ at same
      subst same
      have split : ("/*" : Text) ++ (body ++ (("*/" : Text) ++ behind)) =
          (("/*" : Text) ++ (body ++ ("*/" : Text))) ++ behind := by
        simp only [List.append_assoc]
      have length : body.length + 4 = (("/*" : Text) ++ (body ++ ("*/" : Text))).length := by
        simp [Text.ofString]
      rw [split, length, List.take_left, List.drop_left]
      exact .block first
    · cases h

end IsComment

/-! ## Gaps -/

/-- Separators and comments, and what stands behind them. -/
inductive IsGap : Text → Text → Prop
  | nil {behind : Text} : IsGap [] behind
  | separator {x : CodePoint} {gap behind : Text} :
    isSeparator x = true → IsGap gap behind → IsGap (x :: gap) behind
  | comment {raw gap behind : Text} :
    IsComment raw (gap ++ behind) → IsGap gap behind → IsGap (raw ++ gap) behind

/-- Neither a separator nor a comment begins a text. -/
def EndsGap (t : Text) : Prop := t.head?.any isSeparator = false ∧ commentLength? t = none

theorem endsGap_nil : EndsGap [] := ⟨rfl, rfl⟩

theorem endsGap_of_startsToken {x : CodePoint} {t : Text} (starts : startsToken x = true) :
    EndsGap (x :: t) := by
  refine ⟨?_, commentLength?_of_startsToken starts⟩
  rw [List.head?_cons, Option.any_some]
  by_contra separates
  have blank := CodePoint.isBlank_of_isSeparator (Bool.not_eq_false _ ▸ separates)
  rw [startsToken, blank] at starts
  cases starts

theorem EndsGap.skipSeparators_eq {c : Cursor} (h : EndsGap c.rest) :
    c.skipSeparators.1 = c := by
  cases hr : c.rest with
  | nil => exact skipSeparators_of_nil hr
  | cons x t =>
    obtain ⟨noSeparator, noComment⟩ := h
    rw [hr] at noSeparator
    exact skipSeparators_of_cons hr noSeparator noComment

namespace IsGap

variable {gap behind : Text}

/-- A gap is skipped whole in front of a text that begins with none. -/
theorem skipSeparators_eq (h : IsGap gap behind) (ends : EndsGap behind) {c : Cursor}
    (hr : c.rest = gap ++ behind) : c.skipSeparators.1 = c.advance gap.length := by
  induction h generalizing c with
  | nil =>
    rw [List.nil_append] at hr
    rw [List.length_nil, advance_zero]
    exact EndsGap.skipSeparators_eq (hr ▸ ends)
  | @separator x gap behind separates _ ih =>
    have tail : (c.advance 1).rest = gap ++ behind := by
      rw [advance, hr]
      rfl
    rw [skipSeparators_of_separator hr separates, ih ends tail, advance_advance,
      List.length_cons, Nat.add_comm]
  | @comment raw gap behind isComment _ ih =>
    rw [List.append_assoc] at hr
    have tail : (c.advance raw.length).rest = gap ++ behind := by
      rw [advance, hr]
      exact List.drop_left
    rw [skipSeparators_of_comment (hr ▸ isComment.commentLength?_eq), ih ends tail,
      advance_advance, List.length_append]

/-- Only the empty gap stands where none begins. -/
theorem eq_nil_of_endsGap (h : IsGap gap behind) (ends : EndsGap (gap ++ behind)) : gap = [] := by
  cases h with
  | nil => rfl
  | separator separates =>
    have noSeparator := ends.1
    rw [List.cons_append, List.head?_cons, Option.any_some, separates] at noSeparator
    cases noSeparator
  | comment isComment =>
    have noComment := ends.2
    rw [List.append_assoc, isComment.commentLength?_eq] at noComment
    cases noComment

/-- What is skipped is a gap, and none begins behind it. -/
theorem of_skipSeparators (c : Cursor) : ∃ gap, c.skipSeparators.1 = c.advance gap.length ∧
    c.rest = gap ++ c.skipSeparators.1.rest ∧ IsGap gap c.skipSeparators.1.rest ∧
      EndsGap c.skipSeparators.1.rest := by
  fun_induction skipSeparators c with
  | case1 c atEnd => exact ⟨[], (advance_zero c).symm, rfl, .nil, atEnd ▸ endsGap_nil⟩
  | case2 c x t hr separates d hd skip ih =>
    rw [skip] at ih
    obtain ⟨gap, place, rest, isGap, ends⟩ := ih
    refine ⟨x :: gap, ?_, ?_, .separator separates isGap, ends⟩
    · rw [List.length_cons, Nat.add_comm, ← advance_advance]
      exact place
    · rw [hr, List.cons_append, ← rest, advance, hr]
      rfl
  | case3 c x t hr noSeparator n hn bounds d hd skip ih =>
    rw [skip] at ih
    obtain ⟨gap, place, rest, isGap, ends⟩ := ih
    have length : (c.rest.take n).length = n := List.length_take_of_le bounds.2
    refine ⟨c.rest.take n ++ gap, ?_, ?_, .comment ?_ isGap, ends⟩
    · rw [List.length_append, length, ← advance_advance]
      exact place
    · rw [List.append_assoc, ← rest]
      exact (List.take_append_drop n c.rest).symm
    · rw [← rest]
      exact IsComment.of_commentLength? hn
  | case4 c x t hr noSeparator noComment =>
    refine ⟨[], (advance_zero c).symm, rfl, .nil, ?_, noComment⟩
    rw [hr]
    exact eq_false_of_ne_true noSeparator

end IsGap

end StyleBinding
