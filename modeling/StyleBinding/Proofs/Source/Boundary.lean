import Mathlib.Data.List.Basic
import StyleBinding.Proofs.Source.Alike

/-!
# Where lexemes end

A lexical function takes as much of a text as it can, so the code point behind
a lexeme is one that cannot go on with it.
-/

namespace StyleBinding

theorem CodePoint.isLetter_of_isAlpha {x : Char} (h : x.isAlpha = true) :
    (scalar x).isLetter = true := by
  have small : (scalar x).toNat < 0x80 := by
    change (decide (x.val ≥ 'A'.val ∧ x.val ≤ 'Z'.val) ||
      (decide (x.val ≥ 'a'.val) && decide (x.val ≤ 'z'.val))) = true at h
    simp only [Bool.or_eq_true, Bool.and_eq_true, decide_eq_true_eq, ge_iff_le,
      UInt32.le_iff_toNat_le] at h
    change x.val.toNat < 0x80
    rcases h with h | h
    · exact Nat.lt_of_le_of_lt h.2 (by decide)
    · exact Nat.lt_of_le_of_lt h.2 (by decide)
  rw [isLetter, if_pos small]
  exact h

theorem CodePoint.isTag_of_isTagStart {c : CodePoint} (h : c.isTagStart = true) :
    c.isTag = true := by
  obtain x | i := c
  · simp only [isTagStart, isIn, Bool.or_eq_true, beq_iff_eq] at h
    simp only [isTag, isName, isWord, Bool.or_eq_true, is_iff, scalar_inj]
    rcases h with (letter | rfl) | rfl
    · exact .inl (.inl (.inl (.inl (isLetter_of_isAlpha letter))))
    · exact .inl (.inl (.inr rfl))
    · exact .inl (.inr rfl)
  · cases h

namespace Lexeme

theorem tagNameTail_stops {t : Text} {x : CodePoint}
    (h : (t.drop (tagNameTail t)).head? = some x) : x.isTag = false := by
  fun_induction tagNameTail t with
  | case1 => cases h
  | case2 c rest isTag ih => exact ih (by simpa using h)
  | case3 | case5 | case6 =>
    cases h
    exact eq_false_of_ne_true ‹_›
  | case4 c noTag isJoint d more starts ih => exact ih (by simpa using h)

/-- The code point behind the name of an element is none of a tag. -/
theorem tagNameLength_stops {t : Text} {x : CodePoint} (pos : 0 < tagNameLength t)
    (h : (t.drop (tagNameLength t)).head? = some x) : x.isTag = false := by
  cases t with
  | nil => cases pos
  | cons c rest =>
    simp only [tagNameLength] at pos h
    split at pos
    · rename_i starts
      rw [if_pos starts, List.drop_succ_cons] at h
      exact tagNameTail_stops h
    · cases pos

/-- An attribute name starts with a code point that starts a tag. -/
theorem attributeNameLength_starts {t : Text} (pos : 0 < attributeNameLength t) :
    ∃ x, t.head? = some x ∧ x.isTagStart = true := by
  cases t with
  | nil => cases pos
  | cons c rest =>
    cases starts : c.isTagStart with
    | true => exact ⟨c, rfl, starts⟩
    | false => simp [attributeNameLength, tagPartLength, starts] at pos

/-! ## Names of elements and attributes -/

/-- Whether the name of an element or an attribute may go on with a code point. -/
def goesOn (x : CodePoint) : Bool := x.isTag || x.is ':' || x.is '.'

theorem tagNameTail_eq_zero {w : Text} (stops : w.head?.any goesOn = false) :
    tagNameTail w = 0 := by
  cases w with
  | nil => rfl
  | cons x w =>
    simp only [List.head?_cons, Option.any_some, goesOn, Bool.or_eq_false_iff] at stops
    rw [tagNameTail.eq_def]
    dsimp only
    rw [stops.1.1, stops.1.2, stops.2]
    rfl

theorem tagNameTail_append {u v w : Text} (h : tagNameTail (u ++ v) = u.length)
    (stops : w.head?.any goesOn = false) : tagNameTail (u ++ w) = u.length := by
  generalize size : u.length = n at h
  induction n using Nat.strongRecOn generalizing u with
  | _ n ih =>
    obtain _ | ⟨x, u⟩ := u
    · rw [← size]
      exact tagNameTail_eq_zero stops
    · rw [List.cons_append, tagNameTail.eq_def] at h ⊢
      dsimp only at h ⊢
      rw [List.length_cons] at size
      split at h
      · rename_i isTag
        rw [if_pos isTag, ih u.length (by omega) rfl (by omega), size]
      · rename_i noTag
        rw [if_neg noTag]
        split at h
        · rename_i isJoint
          rw [if_pos isJoint]
          obtain _ | ⟨y, u⟩ := u
          · rw [List.length_nil] at size
            split at h
            · omega
            · split at h <;> omega
          · dsimp only [List.cons_append] at h ⊢
            rw [List.length_cons] at size
            split at h
            · rename_i starts
              rw [if_pos starts, ih u.length (by omega) rfl (by omega)]
              omega
            · omega
        · omega

/-- The name of an element ends in front of every text that no name goes on with. -/
theorem tagNameLength_append {u v w : Text} (h : tagNameLength (u ++ v) = u.length)
    (pos : 0 < u.length) (stops : w.head?.any goesOn = false) :
    tagNameLength (u ++ w) = u.length := by
  obtain _ | ⟨x, u⟩ := u
  · cases pos
  · rw [List.cons_append, tagNameLength, List.length_cons] at h ⊢
    split at h
    · rename_i starts
      rw [if_pos starts, tagNameTail_append (Nat.succ.inj h) stops]
    · cases h

theorem tagPartLength_append {u v w : Text} (h : tagPartLength (u ++ v) = u.length)
    (pos : 0 < u.length) (stops : w.head?.any (·.isTag) = false) :
    tagPartLength (u ++ w) = u.length := by
  obtain _ | ⟨x, u⟩ := u
  · cases pos
  · rw [List.cons_append, tagPartLength, List.length_cons] at h ⊢
    split at h
    · rename_i starts
      have run : Text.countWhile (·.isTag) (u ++ v) = u.length := Nat.succ.inj h
      rw [if_pos starts, Text.countWhile_append (Nat.le_of_eq run) fun _ => stops, run]
    · cases h

theorem attributeNameLength_eq (t : Text) :
    attributeNameLength t =
      if tagPartLength t ≠ 0 ∧ (t.drop (tagPartLength t)).head? = some (.scalar ':') ∧
          tagPartLength (t.drop (tagPartLength t + 1)) ≠ 0 then
        tagPartLength t + 1 + tagPartLength (t.drop (tagPartLength t + 1))
      else tagPartLength t := by
  rw [attributeNameLength, ← List.tail_drop]
  generalize tagPartLength t = n
  by_cases zero : n = 0
  · rw [if_pos zero, if_neg (fun h => h.1 zero), zero]
  · rw [if_neg zero]
    generalize t.drop n = behind
    obtain _ | ⟨x, behind⟩ := behind
    · exact (if_neg (fun h => by cases h.2.1)).symm
    · simp [zero]

/-- The name of an attribute ends in front of every text that no name goes on with. -/
theorem attributeNameLength_append {u v w : Text} (h : attributeNameLength (u ++ v) = u.length)
    (pos : 0 < u.length) (stops : w.head?.any goesOn = false) :
    attributeNameLength (u ++ w) = u.length := by
  have noTag : w.head?.any (·.isTag) = false := by
    cases w with
    | nil => rfl
    | cons x w =>
      simp only [List.head?_cons, Option.any_some, goesOn, Bool.or_eq_false_iff] at stops
      exact stops.1.1
  have noColon : w.head? ≠ some (.scalar ':') := by
    intro colon
    rw [colon] at stops
    exact absurd stops (by decide)
  rw [attributeNameLength_eq] at h
  split at h
  · rename_i both
    obtain ⟨first, colon, second⟩ := both
    generalize size : tagPartLength (u ++ v) = n at *
    have short : n + 1 ≤ u.length := by omega
    rw [List.drop_append_of_le_length (by omega)] at colon
    rw [List.drop_append_of_le_length short] at second h
    have front : (u.take n).length = n := List.length_take_of_le (by omega)
    have behind (t : Text) : u ++ t = u.take n ++ (u.drop n ++ t) := by
      rw [← List.append_assoc, List.take_append_drop]
    have nonempty : u.drop n ≠ [] := by
      intro empty
      have := List.drop_eq_nil_iff.1 empty
      omega
    rw [List.head?_append_of_ne_nil _ nonempty] at colon
    have same : tagPartLength (u ++ w) = n := by
      rw [behind v] at size
      rw [behind w, tagPartLength_append (size.trans front.symm) (by omega), front]
      rw [List.head?_append_of_ne_nil _ nonempty, colon]
      decide
    have length : (u.drop (n + 1)).length = tagPartLength (u.drop (n + 1) ++ v) := by
      rw [List.length_drop]
      omega
    have again := tagPartLength_append length.symm (by omega) noTag
    rw [attributeNameLength_eq, same, List.drop_append_of_le_length (by omega),
      List.drop_append_of_le_length short, List.head?_append_of_ne_nil _ nonempty, again,
      if_pos ⟨first, colon, by omega⟩, length, h]
  · rw [attributeNameLength_eq, tagPartLength_append h pos noTag, if_neg]
    rintro ⟨_, colon, _⟩
    rw [List.drop_left] at colon
    exact noColon colon

/-- The code point behind the name of an attribute is none of a tag. -/
theorem attributeNameLength_stops {t : Text} (pos : 0 < attributeNameLength t) :
    (t.drop (attributeNameLength t)).head?.any (·.isTag) = false := by
  have part (u : Text) (h : 0 < tagPartLength u) :
      (u.drop (tagPartLength u)).head?.any (·.isTag) = false := by
    obtain _ | ⟨x, u⟩ := u
    · cases h
    · rw [tagPartLength] at h ⊢
      split at h
      · rename_i starts
        rw [if_pos starts, List.drop_succ_cons]
        refine Text.head_any_of_countWhile (u := u.take (Text.countWhile (·.isTag) u)) ?_
        rw [List.take_append_drop, List.length_take_of_le (Text.countWhile_le ..)]
      · cases h
  rw [attributeNameLength_eq] at pos ⊢
  split
  · rename_i both
    rw [← List.drop_drop]
    exact part _ (Nat.pos_of_ne_zero both.2.2)
  · rename_i single
    rw [if_neg single] at pos
    exact part t pos

end Lexeme

end StyleBinding
