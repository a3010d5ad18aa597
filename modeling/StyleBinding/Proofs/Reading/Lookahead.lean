import StyleBinding.Proofs.Reading.Relation
import StyleBinding.Proofs.Source.Alike
import StyleBinding.Proofs.Text.Cutting

/-!
# Reading in front of another text

What is read up to a place does not change when the text behind the place is
replaced by one that is alike. Blanks and comments do not look at it at all, and a
token looks no further than where every token ends.
-/

namespace StyleBinding

open Document Cursor Lexeme

/-! ## Blanks and comments -/

namespace Text

theorem offsetOf?_append {pattern u v w : Text} {n : Nat}
    (h : offsetOf? pattern (u ++ v) = some n) (le : n + pattern.length ≤ u.length) :
    offsetOf? pattern (u ++ w) = some n := by
  induction u generalizing n with
  | nil =>
    simp only [List.length_nil, Nat.le_zero, Nat.add_eq_zero_iff, List.length_eq_zero_iff] at le
    obtain ⟨rfl, rfl⟩ := le
    cases w <;> rfl
  | cons x u ih =>
    rw [List.cons_append, offsetOf?] at h ⊢
    split at h
    · rename_i isHead
      cases h
      rw [if_pos]
      have isPrefix := List.isPrefixOf_iff_prefix.1 isHead
      rw [← List.cons_append] at isPrefix
      refine List.isPrefixOf_iff_prefix.2 ?_
      exact (List.prefix_of_prefix_length_le isPrefix (List.prefix_append ..) (by omega)).trans
        (List.prefix_append ..)
    · rename_i notHead
      obtain ⟨m, hm, rfl⟩ := Option.map_eq_some_iff.1 h
      rw [List.length_cons] at le
      rw [if_neg, ih hm (by omega), Option.map_some]
      intro isHead
      refine notHead (List.isPrefixOf_iff_prefix.2 ?_)
      have isPrefix := List.isPrefixOf_iff_prefix.1 isHead
      rw [← List.cons_append] at isPrefix
      exact (List.prefix_of_prefix_length_le isPrefix (List.prefix_append ..) (by
        rw [List.length_cons]
        omega)).trans (List.prefix_append ..)

theorem startsWith_append {u v w : Text} {s : String} (le : s.toList.length ≤ u.length) :
    startsWith (u ++ w) s = startsWith (u ++ v) s := by
  have length : (ofString s).length ≤ u.length := by
    rw [ofString, List.length_map]
    exact le
  have both (t : Text) : startsWith (u ++ t) s = true ↔ ofString s <+: u := by
    rw [startsWith, List.isPrefixOf_iff_prefix]
    constructor
    · exact fun h => List.prefix_of_prefix_length_le h (List.prefix_append ..) length
    · exact fun h => h.trans (List.prefix_append ..)
  rw [Bool.eq_iff_iff, both, both]

theorem startsWith_two {s : String} {a b : Char} (hs : s.toList = [a, b]) (x : CodePoint)
    (t : Text) : startsWith (x :: t) s = (x.is a && t.head?.any (·.is b)) := by
  rw [startsWith, ofString, hs]
  cases t with
  | nil => simp [List.isPrefixOf]
  | cons y t =>
    change (CodePoint.scalar a == x && (CodePoint.scalar b == y && true)) = _
    rw [Bool.and_true, Bool.beq_comm (a := CodePoint.scalar a),
      Bool.beq_comm (a := CodePoint.scalar b)]
    rfl

end Text

namespace Cursor

theorem commentLength?_append {u v w : Text} {n : Nat} (h : commentLength? (u ++ v) = some n)
    (le : n ≤ u.length)
    (ends : Text.countWhile (!·.is '\n') (u ++ v) = u.length → w.head?.any (!·.is '\n') = false) :
    commentLength? (u ++ w) = some n := by
  have two : 2 ≤ n := by
    unfold commentLength? at h
    split at h
    · rename_i opens
      cases h
      obtain ⟨t, ht⟩ := List.isPrefixOf_iff_prefix.1 opens
      rw [← ht]
      simp [Text.ofString, Text.countWhile, CodePoint.is]
    · split at h
      · obtain ⟨m, _, rfl⟩ := Option.map_eq_some_iff.1 h
        omega
      · cases h
  unfold commentLength? at h ⊢
  rw [Text.startsWith_append (u := u) (v := v) (w := w) (s := "//") (Nat.le_trans two le),
    Text.startsWith_append (u := u) (v := v) (w := w) (s := "/*") (Nat.le_trans two le)]
  split at h
  · rename_i opens
    cases h
    rw [if_pos opens, Text.countWhile_append le ends]
  · rename_i noLine
    rw [if_neg noLine]
    split at h
    · rename_i opens
      rw [if_pos opens]
      obtain ⟨m, hm, rfl⟩ := Option.map_eq_some_iff.1 h
      rw [List.drop_append_of_le_length (by omega)] at hm ⊢
      rw [Text.offsetOf?_append hm (by
        rw [List.length_drop]
        have : ("*/" : Text).length = 2 := rfl
        omega), Option.map_some]
    · cases h

theorem commentLength?_head {t : Text} {n : Nat} (h : commentLength? t = some n) :
    ∃ u, t = .scalar '/' :: u := by
  unfold commentLength? at h
  split at h
  · rename_i opens
    obtain ⟨u, rfl⟩ := List.isPrefixOf_iff_prefix.1 opens
    exact ⟨_, rfl⟩
  · split at h
    · rename_i opens
      obtain ⟨u, rfl⟩ := List.isPrefixOf_iff_prefix.1 opens
      exact ⟨_, rfl⟩
    · cases h

/-! ### Where they end -/

theorem skips_of_nil {c : Cursor} (h : c.rest = []) : c.Skips c :=
  ⟨.refl c, by rw [skipTrivia]; split <;> simp_all⟩

theorem skips_of_cons {c : Cursor} {x : CodePoint} {t : Text} (hr : c.rest = x :: t)
    (noBlank : x.isBlank = false) (noComment : commentLength? c.rest = none)
    (noOpening : c.rest.startsWith "/*" = false) : c.Skips c := by
  refine ⟨.refl c, ?_⟩
  rw [skipTrivia]
  split
  · rfl
  · rename_i hr'
    obtain ⟨rfl, rfl⟩ := List.cons.inj (hr.symm.trans hr')
    rw [if_neg (by simp [noBlank])]
    split
    · rename_i hn
      rw [noComment] at hn
      cases hn
    · rw [if_neg (by simp [noOpening])]

theorem Skips.blank {c d : Cursor} {x : CodePoint} {t : Text} (hr : c.rest = x :: t)
    (isBlank : x.isBlank = true) (h : (c.advance 1).Skips d) : c.Skips d := by
  obtain ⟨hd, h⟩ := h
  refine ⟨(past_of_cons hr).upto.trans hd, ?_⟩
  rw [skipTrivia]
  split
  · rename_i atEnd
    rw [hr] at atEnd
    cases atEnd
  · rename_i hr'
    obtain ⟨rfl, rfl⟩ := List.cons.inj (hr.symm.trans hr')
    rw [if_pos isBlank]
    simp only [h]

theorem Skips.comment {c d : Cursor} {n : Nat} (hn : commentLength? c.rest = some n)
    (h : (c.advance n).Skips d) : c.Skips d := by
  obtain ⟨hd, h⟩ := h
  refine ⟨(upto_advance (commentLength?_bounds hn).2).trans hd, ?_⟩
  rw [skipTrivia]
  split
  · rename_i atEnd
    have := commentLength?_bounds hn
    rw [atEnd, List.length_nil] at this
    omega
  · rename_i hr
    rw [if_neg]
    · split
      · rename_i m hm
        rw [hn] at hm
        cases hm
        simp only [h]
      · rename_i none
        rw [hn] at none
        cases none
    · obtain ⟨u, hu⟩ := commentLength?_head hn
      rw [hr] at hu
      cases hu
      decide

/-- Where blanks and comments end: here, behind a blank, or behind a comment. -/
theorem Skips.cases {c d : Cursor} (h : c.Skips d) :
    d = c ∨ (∃ x t, c.rest = x :: t ∧ x.isBlank = true ∧ (c.advance 1).Skips d) ∨
      ∃ n, commentLength? c.rest = some n ∧ (c.advance n).Skips d := by
  obtain ⟨upto, h⟩ := h
  rw [skipTrivia] at h
  split at h
  · cases h
    exact .inl rfl
  · rename_i x t hr
    split at h
    · rename_i isBlank
      split at h
      · cases h
      · rename_i e he skips
        cases h
        exact .inr (.inl ⟨x, t, hr, isBlank, he, skips⟩)
    · split at h
      · rename_i n hn
        dsimp only at h
        split at h
        · cases h
        · rename_i e he skips
          cases h
          exact .inr (.inr ⟨n, hn, he, skips⟩)
      · split at h
        · cases h
        · cases h
          exact .inl rfl

/-- Where no blanks and comments are, a place is where they end. -/
theorem Skips.self_cases {c : Cursor} (h : c.Skips c) :
    c.rest = [] ∨ ∃ x t, c.rest = x :: t ∧ x.isBlank = false ∧ commentLength? c.rest = none ∧
      c.rest.startsWith "/*" = false := by
  obtain ⟨upto, h⟩ := h
  rw [skipTrivia] at h
  split at h
  · exact .inl ‹_›
  · rename_i x t hr
    have step (n : Nat) (pos : 0 < n) (hd : (c.advance n).Upto c) : False := by
      have := hd.offset_le
      simp only [advance] at this
      omega
    split at h
    · split at h
      · cases h
      · rename_i e he skips
        cases h
        exact (step 1 Nat.one_pos he).elim
    · rename_i noBlank
      split at h
      · rename_i n hn
        dsimp only at h
        split at h
        · cases h
        · rename_i e he skips
          cases h
          exact (step n (commentLength?_bounds hn).1 he).elim
      · rename_i noComment
        split at h
        · cases h
        · rename_i noOpening
          exact .inr ⟨x, t, hr, eq_false_of_ne_true noBlank, noComment,
            eq_false_of_ne_true noOpening⟩

/-- Blanks and comments are skipped in front of another text too. At the end of the
text that was skipped up to, a line feed may follow or nothing. -/
theorem Skips.append {a b : Nat} {u v w : Text} {e : Cursor}
    (h : (⟨a, u ++ v⟩ : Cursor).Skips ⟨a + u.length, v⟩)
    (ends : v = [] → w.head?.any (!·.is '\n') = false)
    (k : (⟨b + u.length, w⟩ : Cursor).Skips e) : (⟨b, u ++ w⟩ : Cursor).Skips e := by
  generalize size : u.length = n at h k
  induction n using Nat.strongRecOn generalizing a b u with
  | _ n ih =>
    rcases h.cases with same | ⟨x, t, hr, isBlank, skips⟩ | ⟨m, hm, skips⟩
    · have := congrArg Cursor.offset same
      obtain rfl : n = 0 := by dsimp only at this; omega
      obtain rfl := List.length_eq_zero_iff.1 size
      exact k
    · have offset := skips.upto.offset_le
      obtain _ | ⟨y, u⟩ := u
      · simp only [advance, ← size, List.length_nil] at offset
        omega
      · cases hr
        refine .blank (x := x) (t := u ++ w) rfl isBlank ?_
        refine ih u.length (by rw [← size, List.length_cons]; omega) (a := a + 1) (b := b + 1) rfl
          ?_ ?_
        · rwa [← size, List.length_cons, ← Nat.add_assoc, Nat.add_right_comm] at skips
        · rwa [← size, List.length_cons, ← Nat.add_assoc, Nat.add_right_comm] at k
    · have offset := skips.upto.offset_le
      have pos := (commentLength?_bounds hm).1
      simp only [advance] at offset hm skips
      have le : m ≤ u.length := by omega
      have comment : commentLength? (u ++ w) = some m := by
        refine commentLength?_append hm le fun whole => ends ?_
        rcases h.again.self_cases with nil | ⟨x, t, hr, noBlank, _⟩
        · exact nil
        · have isFeed := Text.head_any_of_countWhile whole
          dsimp only at hr
          rw [hr, List.head?_cons, Option.any_some, Bool.not_eq_false'] at isFeed
          rw [CodePoint.is_iff.1 isFeed] at noBlank
          exact absurd noBlank (by decide)
      refine .comment comment ?_
      simp only [advance, List.drop_append_of_le_length le] at skips ⊢
      refine ih (n - m) (by omega) (a := a + m) (b := b + m) (by rw [List.length_drop]; omega)
        ?_ ?_
      · rwa [show a + m + (n - m) = a + n by omega]
      · rwa [show b + m + (n - m) = b + n by omega]

/-- Whether a text begins like a comment. -/
def opensComment : Text → Bool
  | [] => false
  | x :: t => x.is '/' && t.head?.any fun y => y.is '/' || y.is '*'

theorem opensComment_eq (t : Text) :
    opensComment t = (t.startsWith "//" || t.startsWith "/*") := by
  obtain _ | ⟨x, _ | ⟨y, t⟩⟩ := t
  · rfl
  · simp [opensComment, Text.startsWith, Text.ofString, List.isPrefixOf]
  · simp only [opensComment, List.head?_cons, Option.any_some, Text.startsWith, Text.ofString,
      CodePoint.is]
    change _ = ((CodePoint.scalar '/' == x && (CodePoint.scalar '/' == y && true)) ||
      (CodePoint.scalar '/' == x && (CodePoint.scalar '*' == y && true)))
    rw [Bool.and_true, Bool.and_true, ← Bool.and_or_distrib_left, Bool.beq_comm (a := x),
      Bool.beq_comm (a := y), Bool.beq_comm (a := y)]

/-- A place where neither a blank nor a comment is. -/
theorem skips_self_iff {c : Cursor} :
    c.Skips c ↔ c.rest.head?.any (·.isBlank) = false ∧ opensComment c.rest = false := by
  rw [opensComment_eq, Bool.or_eq_false_iff]
  constructor
  · intro h
    rcases h.self_cases with nil | ⟨x, t, hr, noBlank, noComment, noOpening⟩
    · rw [nil]
      exact ⟨rfl, rfl, rfl⟩
    · rw [hr, List.head?_cons, Option.any_some, ← hr]
      refine ⟨noBlank, ?_, noOpening⟩
      rw [Bool.eq_false_iff]
      intro opens
      rw [commentLength?, if_pos opens] at noComment
      cases noComment
  · rintro ⟨noBlank, noLine, noBlock⟩
    cases hr : c.rest with
    | nil => exact skips_of_nil hr
    | cons x t =>
      rw [hr, List.head?_cons, Option.any_some] at noBlank
      refine skips_of_cons hr noBlank ?_ noBlock
      rw [commentLength?, noLine, noBlock, if_neg Bool.false_ne_true, if_neg Bool.false_ne_true]

/-- Where blanks and comments end in front of one text, they end in front of the
other. -/
theorem Skips.alike {a b : Nat} {v w : Text} (h : (⟨a, v⟩ : Cursor).Skips ⟨a, v⟩)
    (alike : Text.Alike v w) (nonempty : v ≠ []) : (⟨b, w⟩ : Cursor).Skips ⟨b, w⟩ := by
  obtain ⟨noBlank, noComment⟩ := skips_self_iff.1 h
  dsimp only at noBlank noComment
  refine skips_self_iff.2 ?_
  obtain _ | ⟨x, t⟩ := v
  · exact absurd rfl nonempty
  cases isHard : x.isHard with
  | true =>
    obtain ⟨y, s, rfl, isHard⟩ := alike.of_hard isHard
    refine ⟨?_, ?_⟩
    · exact CodePoint.of_isHard (p := (·.isBlank)) isHard (by decide)
    · rw [opensComment, CodePoint.of_isHard (p := (·.is '/')) isHard (by decide),
        Bool.false_and]
  | false =>
    obtain ⟨s, rfl, behind⟩ := alike.of_cons isHard
    refine ⟨noBlank, ?_⟩
    rw [opensComment] at noComment ⊢
    cases behind with
    | alike behind =>
      rw [← behind.head_any (by decide) (by decide)]
      exact noComment
    | next _ same =>
      rw [← same]
      exact noComment
    | point isPoint =>
      rw [isPoint]
      rfl

end Cursor

end StyleBinding
