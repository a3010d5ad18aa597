import StyleBinding.Proofs.Reading.Lookahead

/-!
# Separators and blanks

Import clauses and values skip fewer code points than scripts do: five characters
and comments. In front of anything that is neither blank nor a slash both skip
the same, since what separates there is blank here and comments are the same.
What is skipped up to a place inside a span is skipped in the text of the span.
-/

namespace StyleBinding

open Cursor

/-! ## Blanks -/

theorem inRanges_exists {ranges : List (Nat × Nat)} {n : Nat} (h : inRanges ranges n = true) :
    ∃ r ∈ ranges, r.1 ≤ n ∧ n ≤ r.2 := by
  induction ranges with
  | nil => cases h
  | cons r rest ih =>
    obtain ⟨low, high⟩ := r
    rw [inRanges] at h
    split at h
    · cases h
    rename_i le
    rcases Bool.or_eq_true_iff.1 h with le' | inRest
    · exact ⟨(low, high), List.mem_cons_self, Nat.le_of_not_lt le, of_decide_eq_true le'⟩
    · obtain ⟨r, member, bounds⟩ := ih inRest
      exact ⟨r, List.mem_cons_of_mem _ member, bounds⟩

/-- The blank characters, one by one. -/
def blankCharacters : List Char :=
  blankRanges.flatMap fun r => (List.range' r.1 (r.2 + 1 - r.1)).map Char.ofNat

namespace CodePoint

theorem mem_of_isBlank {x : CodePoint} (h : x.isBlank = true) :
    ∃ y ∈ blankCharacters, x = .scalar y := by
  obtain ⟨r, member, low, high⟩ := inRanges_exists h
  obtain y | i := x
  · refine ⟨y, List.mem_flatMap.2 ⟨r, member, List.mem_map.2 ⟨y.toNat, ?_, ?_⟩⟩, rfl⟩
    · rw [List.mem_range'_1]
      change r.1 ≤ y.toNat at low
      change y.toNat ≤ r.2 at high
      omega
    · exact Char.ofNat_toNat y
  · have small : ∀ r ∈ blankRanges, r.2 < 0xD800 := by decide
    have := small r member
    simp only [toNat] at high
    omega

/-- A class without blank characters has no blanks in it. -/
theorem not_isBlank_of {p : CodePoint → Bool} {x : CodePoint} (h : p x = true)
    (omitted : omits p blankCharacters = true) : x.isBlank = false := by
  by_contra blank
  obtain ⟨y, member, rfl⟩ := mem_of_isBlank (Bool.not_eq_false _ ▸ blank)
  rw [eq_false_of_omits omitted member] at h
  cases h

theorem not_isBlank_of_isName {x : CodePoint} (h : x.isName = true) : x.isBlank = false :=
  not_isBlank_of h (by decide +kernel)

theorem isBlank_of_isSeparator {x : CodePoint} (h : isSeparator x = true) : x.isBlank = true := by
  simp only [isSeparator, Bool.or_eq_true, is_iff] at h
  rcases h with (((rfl | rfl) | rfl) | rfl) | rfl <;> rfl

end CodePoint

/-! ## What separators are skipped -/

namespace Cursor

variable {c : Cursor} {x : CodePoint} {t : Text}

theorem skipSeparators_of_nil (hr : c.rest = []) : c.skipSeparators.1 = c := by
  rw [skipSeparators]
  split
  · rfl
  · rename_i hr'
    rw [hr] at hr'
    cases hr'

theorem skipSeparators_of_separator (hr : c.rest = x :: t) (h : isSeparator x = true) :
    c.skipSeparators.1 = (c.advance 1).skipSeparators.1 := by
  rw [skipSeparators]
  split
  · rename_i atEnd
    rw [hr] at atEnd
    cases atEnd
  · rename_i hr'
    obtain ⟨rfl, rfl⟩ := List.cons.inj (hr.symm.trans hr')
    rw [if_pos h]

theorem not_isSeparator_of_comment {n : Nat} (hn : commentLength? (x :: t) = some n) :
    isSeparator x = false := by
  obtain ⟨u, hu⟩ := commentLength?_head hn
  cases hu
  decide

theorem skipSeparators_of_comment {n : Nat} (hn : commentLength? c.rest = some n) :
    c.skipSeparators.1 = (c.advance n).skipSeparators.1 := by
  rw [skipSeparators]
  split
  · rename_i atEnd
    rw [atEnd] at hn
    cases hn
  · rename_i hr
    rw [if_neg (by simp [not_isSeparator_of_comment (hr ▸ hn)])]
    split
    · rename_i m hm
      rw [hn] at hm
      cases hm
      rfl
    · rename_i none
      rw [hn] at none
      cases none

theorem skipSeparators_of_cons (hr : c.rest = x :: t) (noSeparator : isSeparator x = false)
    (noComment : commentLength? c.rest = none) : c.skipSeparators.1 = c := by
  rw [skipSeparators]
  split
  · rfl
  · rename_i hr'
    obtain ⟨rfl, rfl⟩ := List.cons.inj (hr.symm.trans hr')
    rw [if_neg (by simp [noSeparator])]
    split
    · rename_i n hn
      rw [noComment] at hn
      cases hn
    · rfl

/-- Whether neither blanks nor comments start with a code point. -/
def startsToken (x : CodePoint) : Bool := !(x.isBlank || x.is '/')

theorem commentLength?_of_startsToken (starts : startsToken x = true) :
    commentLength? (x :: t) = none := by
  by_contra some
  obtain ⟨n, hn⟩ := Option.ne_none_iff_exists'.1 some
  obtain ⟨u, hu⟩ := commentLength?_head hn
  cases hu
  cases starts

theorem skips_of_startsToken (hr : c.rest = x :: t) (starts : startsToken x = true) :
    c.Skips c := by
  refine skips_of_cons hr ?_ (hr ▸ commentLength?_of_startsToken starts) ?_
  · simp only [startsToken, Bool.not_eq_true', Bool.or_eq_false_iff] at starts
    exact starts.1
  · by_contra opens
    obtain ⟨u, hu⟩ := List.isPrefixOf_iff_prefix.1 (Bool.not_eq_false _ ▸ opens)
    rw [hr] at hu
    cases hu
    cases starts

/-- Separators up to a token, or up to the end, are all that a script skips. -/
theorem skips_skipSeparators (c : Cursor)
    (starts : ∀ x t, c.skipSeparators.1.rest = x :: t → startsToken x = true) :
    c.Skips c.skipSeparators.1 := by
  fun_induction skipSeparators c with
  | case1 c atEnd => exact skips_of_nil atEnd
  | case2 c x t hr isSeparator d hd skip ih =>
    rw [skip] at ih
    exact .blank hr (CodePoint.isBlank_of_isSeparator isSeparator) (ih starts)
  | case3 c x t hr noSeparator n hn bounds d hd skip ih =>
    rw [skip] at ih
    exact .comment hn (ih starts)
  | case4 c x t hr => exact skips_of_startsToken hr (starts x t hr)

/-! ## In the text of a span -/

/-- The place of a cursor in the text of a span. -/
def inside (s : Span) (c : Cursor) : Cursor :=
  ⟨c.offset - s.start, c.rest.take (s.stop - c.offset)⟩

theorem inside_advance {s : Span} (le : s.start ≤ c.offset) (n : Nat) :
    (c.inside s).advance n = (c.advance n).inside s := by
  simp only [inside, advance, List.drop_take, Nat.sub_sub, Nat.sub_add_comm le]

theorem commentLength?_take {n m : Nat} (hn : commentLength? t = some n) (le : n ≤ m) :
    commentLength? (t.take m) = some n := by
  have bounds := commentLength?_bounds hn
  have := commentLength?_append (u := t.take m) (v := t.drop m) (w := []) (n := n)
    (by rwa [List.take_append_drop]) (by rw [List.length_take]; omega) (fun _ => rfl)
  rwa [List.append_nil] at this

theorem commentLength?_isSome_append {u : Text} (h : (commentLength? u).isSome = true) (v : Text) :
    (commentLength? (u ++ v)).isSome = true := by
  have goesOn {s : String} (starts : Text.startsWith u s = true) :
      Text.startsWith (u ++ v) s = true :=
    List.isPrefixOf_iff_prefix.2
      ((List.isPrefixOf_iff_prefix.1 starts).trans (List.prefix_append ..))
  unfold commentLength? at h ⊢
  split at h
  · rename_i isLine
    rw [if_pos (goesOn isLine)]
    rfl
  split at h
  · rename_i isBlock
    split
    · rfl
    rw [if_pos (goesOn isBlock)]
    rw [Option.isSome_map] at h ⊢
    obtain ⟨m, hm⟩ := Option.isSome_iff_exists.1 h
    have two : 2 ≤ u.length := le_length_of_startsWith (c := ⟨0, u⟩) isBlock
    have inside := Text.offsetOf?_le hm
    rw [← List.append_nil (List.drop 2 u)] at hm
    rw [List.drop_append_of_le_length two, Text.offsetOf?_append hm inside]
    rfl
  · cases h

theorem commentLength?_take_eq_none {m : Nat} (noComment : commentLength? t = none) :
    commentLength? (t.take m) = none := by
  by_contra isComment
  have := commentLength?_isSome_append (Option.isSome_iff_ne_none.2 isComment) (t.drop m)
  rw [List.take_append_drop, noComment] at this
  cases this

/-- What is skipped up to a place inside a span is skipped in the text of the span. -/
theorem skipSeparators_inside {s : Span} {c : Cursor} (le : s.start ≤ c.offset)
    (lt : c.skipSeparators.1.offset < s.stop) :
    (c.inside s).skipSeparators.1 = c.skipSeparators.1.inside s := by
  have room {c d : Cursor} (hd : c.Upto d) (lt : d.offset < s.stop) :
      ∃ m, s.stop - c.offset = m + 1 := by
    have := hd.offset_le
    exact ⟨s.stop - c.offset - 1, by omega⟩
  fun_induction skipSeparators c with
  | case1 c atEnd =>
    apply skipSeparators_of_nil
    rw [inside, atEnd, List.take_nil]
  | case2 c x t hr isSeparator d hd skip ih =>
    rw [skip] at ih
    obtain ⟨m, hm⟩ := room ((past_of_cons hr).upto.trans hd) lt
    rw [skipSeparators_of_separator (x := x) (t := t.take m) (by rw [inside, hr, hm]; rfl)
      isSeparator, inside_advance le]
    exact ih (Nat.le_trans le (Nat.le_succ _)) lt
  | case3 c x t hr noSeparator n hn bounds d hd skip ih =>
    rw [skip] at ih
    have := hd.offset_le
    simp only [advance] at this
    rw [skipSeparators_of_comment (n := n) (commentLength?_take hn (by dsimp only at lt; omega)),
      inside_advance le]
    exact ih (Nat.le_trans le (Nat.le_add_right _ _)) lt
  | case4 c x t hr noSeparator noComment =>
    obtain ⟨m, hm⟩ := room (.refl c) lt
    exact skipSeparators_of_cons (x := x) (t := t.take m) (by rw [inside, hr, hm]; rfl)
      (eq_false_of_ne_true noSeparator) (commentLength?_take_eq_none noComment)

end Cursor

end StyleBinding
