import Mathlib.Algebra.Group.Nat.Defs
import Mathlib.Data.List.Infix
import StyleBinding.Proofs.Source.Alike
import StyleBinding.Source.Literal

/-!
# Escapes beyond the last code point

A literal that cannot be decoded has an escape in it that names a number beyond
the last code point. Only an escape with its number in braces can: four
hexadecimal digits stay below the limit. The escape stands in every text that the
literal is taken from.
-/

namespace StyleBinding

theorem Cursor.Upto.suffix {c d : Cursor} (h : c.Upto d) : d.rest <:+ c.rest := by
  obtain ⟨n, _, rfl⟩ := h
  exact List.drop_suffix n c.rest

/-! ## Numbers -/

theorem hexValue?_lt {c : Char} {n : Nat} (h : hexValue? c = some n) : n < 16 := by
  have bound {y : Char} (le : c ≤ y) : c.toNat ≤ y.toNat := UInt32.le_iff_toNat_le.1 le
  unfold hexValue? at h
  simp only [Bool.and_eq_true, decide_eq_true_eq] at h
  split at h
  · rename_i digit
    have : c.toNat ≤ 57 := bound digit.2
    cases h
    change c.toNat - 48 < 16
    omega
  · split at h
    · rename_i lower
      have : c.toNat ≤ 102 := bound lower.2
      cases h
      change c.toNat - 97 + 10 < 16
      omega
    · split at h
      · rename_i upper
        have : c.toNat ≤ 70 := bound upper.2
        cases h
        change c.toNat - 65 + 10 < 16
        omega
      · cases h

theorem CodePoint.hexValue?_getD_lt (c : CodePoint) : c.hexValue?.getD 0 < 16 := by
  cases h : c.hexValue? with
  | none => exact Nat.succ_pos 15
  | some n =>
    cases c with
    | scalar x => exact hexValue?_lt h
    | surrogate i => cases h

namespace Text

theorem hexNumber_lt (digits : Text) : hexNumber digits < 16 ^ digits.length := by
  induction digits using List.reverseRecOn with
  | nil => exact Nat.one_pos
  | append_singleton front c ih =>
    have := c.hexValue?_getD_lt
    rw [hexNumber, List.foldl_concat, List.length_append, List.length_singleton, Nat.pow_succ]
    rw [hexNumber] at ih
    omega

/-- A number in braces behind a backslash and a `u` stands in a text. -/
def HasEscape (t : Text) (number : Nat) : Prop :=
  ∃ u rest length, t = u ++ .scalar '\\' :: .scalar 'u' :: rest ∧
    Literal.bracedNumber? rest = some (length, number)

end Text

namespace Literal

theorem bracedNumber?_append {t v : Text} {length n : Nat}
    (h : bracedNumber? t = some (length, n)) : bracedNumber? (t ++ v) = some (length, n) := by
  unfold bracedNumber? at h
  split at h
  · rename_i rest
    dsimp only at h
    split at h
    · rename_i closed
      rw [Bool.and_eq_true] at closed
      have le := Text.countWhile_le (·.isHex) rest
      have short : Text.countWhile (·.isHex) rest < rest.length := by
        by_contra long
        rw [List.drop_of_length_le (Nat.le_of_not_lt long)] at closed
        cases closed.2
      have same : Text.countWhile (·.isHex) (rest ++ v) = Text.countWhile (·.isHex) rest := by
        have := Text.countWhile_append (p := (·.isHex)) (u := rest) (v := []) (w := v)
          (by rwa [List.append_nil]) (by rw [List.append_nil]; omega)
        rwa [List.append_nil] at this
      rw [List.cons_append, bracedNumber?]
      rw [same, List.drop_append_of_le_length le, List.take_append_of_le_length le, if_pos]
      · exact h
      · rw [Bool.and_eq_true]
        refine ⟨closed.1, ?_⟩
        exact List.isPrefixOf_iff_prefix.2
          ((List.isPrefixOf_iff_prefix.1 closed.2).trans (List.prefix_append ..))
    · cases h
  · cases h

end Literal

/-- An escape stands also in what surrounds its text. -/
theorem Text.HasEscape.of_infix {t s : Text} {n : Nat} (h : t.HasEscape n) (inside : t <:+: s) :
    s.HasEscape n := by
  obtain ⟨u, rest, length, rfl, braced⟩ := h
  obtain ⟨front, back, rfl⟩ := inside
  refine ⟨front ++ u, rest ++ back, length, ?_, Literal.bracedNumber?_append braced⟩
  simp

namespace Literal

theorem fixedNumber?_lt {width length n : Nat} {t : Text}
    (h : fixedNumber? width t = some (length, n)) : n < 16 ^ width := by
  unfold fixedNumber? at h
  split at h
  · rename_i enough
    cases h
    have lt := Text.hexNumber_lt (t.take width)
    rwa [List.length_take_of_le (Nat.le_trans enough (Text.countWhile_le ..))] at lt
  · cases h

theorem number_of_numbered {n : Nat} {e : EscapeBeyondLimit} (h : numbered n = .error e) :
    e.number = n ∧ 0x110000 ≤ n := by
  unfold numbered at h
  split at h
  · cases h
  · rename_i none
    cases h
    refine ⟨rfl, ?_⟩
    by_contra small
    have some := CodePoint.ofNat?_isSome_iff.2 (Nat.lt_of_not_le small)
    rw [none] at some
    cases some

/-- Only a number in braces is too large. -/
theorem escape_eq_error {c : CodePoint} {rest : Text} {skip : Nat} {e : EscapeBeyondLimit}
    (h : escape c rest = (skip, .error e)) :
    c = .scalar 'u' ∧ 0x110000 ≤ e.number ∧
      ∃ length, bracedNumber? rest = some (length, e.number) := by
  unfold escape at h
  split at h
  · rename_i length n isNumber
    obtain ⟨rfl, numbered⟩ := Prod.mk.inj h
    obtain ⟨same, beyond⟩ := number_of_numbered numbered
    rw [same]
    unfold escapeNumber? at isNumber
    split at isNumber
    · rename_i isU
      refine ⟨CodePoint.is_iff.1 isU, beyond, length, ?_⟩
      cases braced : bracedNumber? rest with
      | some r =>
        rw [braced] at isNumber
        exact isNumber
      | none =>
        rw [braced] at isNumber
        have := fixedNumber?_lt isNumber
        omega
    · split at isNumber
      · have := fixedNumber?_lt isNumber
        omega
      · cases isNumber
  · split at h <;> cases h

/-- A text that cannot be decoded has an escape beyond the limit. -/
theorem hasEscape_of_decodeAfter {skip : Nat} {t : Text} {e : EscapeBeyondLimit}
    (h : decodeAfter skip t = .error e) : 0x110000 ≤ e.number ∧ t.HasEscape e.number := by
  fun_induction decodeAfter skip t with
  | case1 | case3 | case6 | case8 => cases h
  | case2 skip c rest ih =>
    obtain ⟨beyond, escape⟩ := ih h
    exact ⟨beyond, escape.of_infix (List.suffix_cons c rest).isInfix⟩
  | case4 c isEscape d more skip e' failed =>
    cases h
    obtain ⟨rfl, beyond, length, braced⟩ := escape_eq_error failed
    obtain rfl := CodePoint.is_iff.1 isEscape
    exact ⟨beyond, [], more, length, rfl, braced⟩
  | case5 c isEscape d more skip meaning _ e' failed ih =>
    cases h
    obtain ⟨beyond, escape⟩ := ih failed
    exact ⟨beyond, escape.of_infix ⟨[c, d], [], by simp⟩⟩
  | case7 c rest noEscape e' failed ih =>
    cases h
    obtain ⟨beyond, escape⟩ := ih failed
    exact ⟨beyond, escape.of_infix (List.suffix_cons c rest).isInfix⟩

theorem hasEscape_of_decodeQuoted {raw : Text} {e : EscapeBeyondLimit}
    (h : decodeQuoted raw = .error e) : 0x110000 ≤ e.number ∧ raw.HasEscape e.number := by
  obtain ⟨beyond, escape⟩ := hasEscape_of_decodeAfter h
  refine ⟨beyond, escape.of_infix ?_⟩
  exact (List.dropLast_prefix _).isInfix.trans (List.drop_suffix 1 raw).isInfix

end Literal

end StyleBinding
