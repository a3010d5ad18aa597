import StyleBinding.Proofs.Source.Escape
import StyleBinding.Proofs.Text.Utf8

/-!
# Surrogates in literals

A literal stands for a surrogate only if its text holds that surrogate itself, or an
escape that gives its number. A pair of such escapes is two surrogates and no scalar
value.
-/

namespace StyleBinding

/-- An escape that gives a number stands in a text. -/
def Text.Names (t : Text) (number : Nat) : Prop :=
  ∃ u x rest length, t = u ++ .scalar '\\' :: x :: rest ∧
    Literal.escapeNumber? x rest = some (length, number)

/-- A run goes on at least as long in front of more text. -/
theorem Text.countWhile_le_append (p : CodePoint → Bool) (t v : Text) :
    countWhile p t ≤ countWhile p (t ++ v) := by
  induction t with
  | nil => exact Nat.zero_le _
  | cons c t ih =>
    rw [List.cons_append, countWhile, countWhile]
    split
    · exact Nat.succ_le_succ ih
    · exact Nat.le_refl 0

namespace Literal

variable {t v : Text} {length number : Nat}

theorem digits_of_fixedNumber? {width : Nat} (h : fixedNumber? width t = some (length, number)) :
    width ≤ Text.countWhile (·.isHex) t := by
  unfold fixedNumber? at h
  split_ifs at h with enough
  exact enough

theorem fixedNumber?_append {width : Nat} (h : fixedNumber? width t = some (length, number)) :
    fixedNumber? width (t ++ v) = some (length, number) := by
  have enough := digits_of_fixedNumber? h
  have reached : width ≤ t.length := Nat.le_trans enough (Text.countWhile_le ..)
  have further := Text.countWhile_le_append (·.isHex) t v
  unfold fixedNumber? at h ⊢
  rw [if_pos enough] at h
  rw [if_pos (Nat.le_trans enough further), List.take_append_of_le_length reached, h]

/-- A number in braces does not begin with a digit. -/
theorem bracedNumber?_of_digits (digits : 0 < Text.countWhile (·.isHex) t) :
    bracedNumber? t = none := by
  unfold bracedNumber?
  split
  · cases digits
  · rfl

theorem escapeNumber?_append {x : CodePoint} (h : escapeNumber? x t = some (length, number)) :
    escapeNumber? x (t ++ v) = some (length, number) := by
  unfold escapeNumber? at h ⊢
  split_ifs at h ⊢
  · cases braced : bracedNumber? t with
    | some r =>
      rw [braced] at h
      cases h
      rw [bracedNumber?_append braced]
      rfl
    | none =>
      rw [braced] at h
      have fixed : fixedNumber? 4 t = some (length, number) := h
      have digits := Nat.le_trans (digits_of_fixedNumber? fixed)
        (Text.countWhile_le_append (·.isHex) t v)
      rw [bracedNumber?_of_digits (by omega), fixedNumber?_append fixed]
      rfl
  · exact fixedNumber?_append h

end Literal

namespace Text

/-- An escape stands also in what surrounds its text. -/
theorem Names.mono {t s : Text} {number : Nat} (h : t.Names number) (inside : t <:+: s) :
    s.Names number := by
  obtain ⟨u, x, rest, length, rfl, named⟩ := h
  obtain ⟨front, back, rfl⟩ := inside
  refine ⟨front ++ u, x, rest ++ back, length, ?_, Literal.escapeNumber?_append named⟩
  simp

end Text

namespace Literal

variable {t meaning : Text} {c : CodePoint}

theorem eq_of_letterEscape {d : CodePoint} (half : (letterEscape d).isSurrogate = true) :
    letterEscape d = d := by
  unfold letterEscape at half ⊢
  split_ifs at half ⊢
  all_goals first | rfl | cases half

/-- An escape stands for a surrogate if it gives its number, or if it is the surrogate with
a backslash in front. -/
theorem mem_of_escape {d : CodePoint} {rest : Text} {skip : Nat}
    (h : escape d rest = (skip, .ok meaning)) (inside : c ∈ meaning)
    (half : c.isSurrogate = true) :
    c = d ∨ ∃ length, escapeNumber? d rest = some (length, c.toNat) := by
  unfold escape at h
  split at h
  · rename_i length n isNumber
    obtain ⟨rfl, isMeaning⟩ := Prod.mk.inj h
    unfold numbered at isMeaning
    split at isMeaning
    · rename_i isPoint
      cases isMeaning
      obtain rfl := List.mem_singleton.1 inside
      rw [CodePoint.toNat_of_ofNat? isPoint]
      exact .inr ⟨length, isNumber⟩
    · cases isMeaning
  · split_ifs at h
    all_goals
      cases h
    · cases inside
    · cases inside
    · obtain rfl := List.mem_singleton.1 inside
      exact .inl (eq_of_letterEscape half)

/-- A surrogate that a text is decoded to stands in it, or is named in it. -/
theorem mem_or_names_of_decodeAfter {skip : Nat} (h : decodeAfter skip t = .ok meaning)
    (inside : c ∈ meaning) (half : c.isSurrogate = true) : c ∈ t ∨ t.Names c.toNat := by
  have behind {u v : Text} (k : c ∈ v ∨ v.Names c.toNat) : c ∈ u ++ v ∨ (u ++ v).Names c.toNat :=
    k.imp (List.mem_append_right u) (·.mono (List.suffix_append u v).isInfix)
  fun_induction decodeAfter skip t generalizing meaning with
  | case1 =>
    cases h
    cases inside
  | case2 skip d rest ih => exact behind (u := [d]) (ih h inside)
  | case3 d isEscape =>
    cases h
    exact .inl inside
  | case4 | case5 | case7 => cases h
  | case6 d isEscape x more skip escaped isEscaped tail isTail ih =>
    cases h
    obtain rfl := CodePoint.is_iff.1 isEscape
    obtain inside | inside := List.mem_append.1 inside
    · obtain rfl | ⟨length, named⟩ := mem_of_escape isEscaped inside half
      · exact .inl (by simp)
      · exact .inr ⟨[], x, more, length, rfl, named⟩
    · exact behind (u := [.scalar '\\', x]) (ih isTail inside)
  | case8 d rest noEscape tail isTail ih =>
    cases h
    obtain rfl | inside := List.mem_cons.1 inside
    · exact .inl List.mem_cons_self
    · exact behind (u := [d]) (ih isTail inside)

theorem mem_or_names_of_decodeQuoted {raw : Text} (h : decodeQuoted raw = .ok meaning)
    (inside : c ∈ meaning) (half : c.isSurrogate = true) : c ∈ raw ∨ raw.Names c.toNat := by
  have body : (raw.drop 1).dropLast <:+: raw :=
    (List.dropLast_prefix _).isInfix.trans (List.drop_suffix 1 raw).isInfix
  exact (mem_or_names_of_decodeAfter h inside half).imp (body.subset ·) (·.mono body)

end Literal

end StyleBinding
