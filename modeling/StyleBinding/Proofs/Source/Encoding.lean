import StyleBinding.Proofs.Source.Alike
import StyleBinding.Proofs.Text.Cutting
import StyleBinding.Source.Literal

/-!
# Written literals

A text written as a double-quoted literal is one string for the scanner, whatever
stands behind it, and it decodes to the text. Each code point is written in one of
three ways, and both facts follow from what is read back for each of them.
-/

namespace StyleBinding

theorem CodePoint.ofNat?_toNat (c : CodePoint) : ofNat? c.toNat = some c := by
  rcases c with x | i
  · have valid : x.toNat.isValidChar := x.valid
    rw [toNat, ofNat?, dif_pos valid]
    exact congrArg (fun y => some (scalar y)) (Char.ext (UInt32.toNat_inj.1 rfl))
  · have noScalar : ¬ (0xD800 + i.val).isValidChar := by
      rw [Nat.isValidChar]
      omega
    have half : 0xD800 ≤ 0xD800 + i.val ∧ 0xD800 + i.val < 0xE000 := by omega
    rw [toNat, ofNat?, dif_neg noScalar, dif_pos half]
    exact congrArg (fun j => some (surrogate j)) (Fin.ext (Nat.add_sub_cancel_left ..))

namespace Literal

/-! ## Code points -/

/-- Four hexadecimal digits stand for the control characters. -/
theorem ofHex_control : ∀ n < 0x20, (Text.ofHex 4 n).length = 4 ∧
    (Text.ofHex 4 n).all (·.isHex) = true ∧ Text.hexNumber (Text.ofHex 4 n) = n := by
  decide +kernel

/-- What a text of hexadecimal digits stands for behind the letter of an escape. -/
theorem escape_digits {digits : Text} (length : digits.length = 4)
    (hex : ∀ d ∈ digits, d.isHex = true) (rest : Text) :
    escape (.scalar 'u') (digits ++ rest) = (4, numbered (Text.hexNumber digits)) := by
  have noBrace : bracedNumber? (digits ++ rest) = none := by
    obtain _ | ⟨d, digits⟩ := digits
    · cases length
    unfold bracedNumber?
    split
    · rename_i same
      obtain ⟨rfl, -⟩ := List.cons.inj same
      cases hex _ List.mem_cons_self
    · rfl
  have run : 4 ≤ Text.countWhile (·.isHex) (digits ++ rest) := by
    rw [Text.countWhile_eq, List.takeWhile_append_of_pos hex, List.length_append, length]
    exact Nat.le_add_right ..
  have whole : (digits ++ rest).take 4 = digits := List.take_left' length
  have number : escapeNumber? (.scalar 'u') (digits ++ rest) =
      some (4, Text.hexNumber digits) := by
    rw [escapeNumber?, if_pos (CodePoint.is_iff.2 rfl), noBrace, fixedNumber?, if_pos run, whole]
    rfl
  rw [escape, number]

theorem escape_of_shortEscape? {c : CodePoint} {x : Char} (short : shortEscape? c = some x)
    (rest : Text) : escape (.scalar x) rest = (0, .ok [c]) := by
  unfold shortEscape? at short
  split_ifs at short
  all_goals
    cases short
    rw [CodePoint.is_iff.1 ‹c.is _ = true›]
    rfl

/-- Quotes, backslashes and line feeds have a short escape. -/
theorem not_is_of_shortEscape? {c : CodePoint} (short : shortEscape? c = none) {x : Char}
    (delimits : (shortEscape? (.scalar x)).isSome = true) : c.is x = false := by
  refine Bool.eq_false_iff.2 fun same => ?_
  rw [CodePoint.is_iff.1 same] at short
  rw [short] at delimits
  cases delimits

/-- A code point is written as an escape of one letter, as one of four digits, or as
it is. -/
theorem encodePoint_cases (c : CodePoint) :
    (∃ x, encodePoint c = [.scalar '\\', x] ∧ ∀ rest, escape x rest = (0, .ok [c])) ∨
    (∃ digits, encodePoint c = .scalar '\\' :: .scalar 'u' :: digits ∧
      (∀ d ∈ digits, d.isHex = true) ∧
      ∀ rest, escape (.scalar 'u') (digits ++ rest) = (digits.length, .ok [c])) ∨
    (encodePoint c = [c] ∧ c.is '"' = false ∧ c.is '\\' = false ∧ c.is '\n' = false) := by
  cases short : shortEscape? c with
  | some x => exact .inl ⟨.scalar x, by rw [encodePoint, short], escape_of_shortEscape? short⟩
  | none =>
    by_cases control : c.toNat < 0x20
    · obtain ⟨length, hex, number⟩ := ofHex_control c.toNat control
      rw [List.all_eq_true] at hex
      refine .inr (.inl ⟨Text.ofHex 4 c.toNat, ?_, hex, fun rest => ?_⟩)
      · rw [encodePoint, short]
        exact if_pos control
      · rw [escape_digits length hex, length, number, numbered, CodePoint.ofNat?_toNat]
    · refine .inr (.inr ⟨?_, ?_, ?_, ?_⟩)
      · rw [encodePoint, short]
        exact if_neg control
      all_goals exact not_is_of_shortEscape? short rfl

/-! ## Reading back -/

theorem decodeAfter_append_length (u rest : Text) :
    decodeAfter u.length (u ++ rest) = decodeAfter 0 rest := by
  induction u with
  | nil => rfl
  | cons c u ih => exact ih

/-- A code point that was written is read back. -/
theorem decodeAfter_encodePoint (c : CodePoint) {rest t : Text}
    (reads : decodeAfter 0 rest = .ok t) :
    decodeAfter 0 (encodePoint c ++ rest) = .ok (c :: t) := by
  rcases encodePoint_cases c with ⟨x, written, isC⟩ | ⟨digits, written, _, isC⟩ |
    ⟨written, _, noEscape, _⟩
  · rw [written, List.cons_append, List.singleton_append, decodeAfter,
      if_pos (CodePoint.is_iff.2 rfl)]
    simp only [isC, reads]
    rfl
  · rw [written, List.cons_append, List.cons_append, decodeAfter,
      if_pos (CodePoint.is_iff.2 rfl)]
    simp only [isC, decodeAfter_append_length, reads]
    rfl
  · rw [written, List.singleton_append, decodeAfter.eq_def]
    dsimp only
    rw [if_neg (Bool.eq_false_iff.1 noEscape), reads]

theorem decode_flatMap_encodePoint (t : Text) : decode (t.flatMap encodePoint) = .ok t := by
  induction t with
  | nil => rfl
  | cons c t ih =>
    rw [List.flatMap_cons]
    exact decodeAfter_encodePoint c ih

/-- A literal stands for the text that was written. -/
theorem decodeQuoted_encode (t : Text) : decodeQuoted (encode t) = .ok t := by
  rw [decodeQuoted, encode, List.cons_append, List.drop_one, List.tail_cons,
    List.dropLast_concat, decode_flatMap_encodePoint]

end Literal

/-! ## The scanner -/

namespace Lexeme

open Literal

theorem isHex_ne {d : CodePoint} (hex : d.isHex = true) {x : Char}
    (noHex : (CodePoint.scalar x).isHex = false) : d.is x = false := by
  refine Bool.eq_false_iff.2 fun same => ?_
  rw [CodePoint.is_iff.1 same, noHex] at hex
  cases hex

theorem stringTail?_hex {digits : Text} (hex : ∀ d ∈ digits, d.isHex = true) (rest : Text) :
    stringTail? '"' (digits ++ rest) = (stringTail? '"' rest).map (· + digits.length) := by
  induction digits with
  | nil => simp
  | cons d digits ih =>
    obtain ⟨here, behind⟩ := List.forall_mem_cons.1 hex
    rw [List.cons_append, stringTail?_cons, isHex_ne here rfl, isHex_ne here rfl,
      isHex_ne here rfl, ih behind]
    simp only [Bool.false_eq_true, if_false, Option.map_map]
    rfl

/-- A string goes on over a code point that was written. -/
theorem stringTail?_encodePoint (c : CodePoint) (rest : Text) :
    stringTail? '"' (encodePoint c ++ rest) =
      (stringTail? '"' rest).map (· + (encodePoint c).length) := by
  rcases encodePoint_cases c with ⟨x, written, _⟩ | ⟨digits, written, hex, _⟩ |
    ⟨written, noQuote, noEscape, noFeed⟩
  · rw [written]
    rfl
  · have escaped : stringTail? '"' (.scalar '\\' :: .scalar 'u' :: (digits ++ rest)) =
        (stringTail? '"' (digits ++ rest)).map (· + 2) := rfl
    rw [written, List.cons_append, List.cons_append, escaped, stringTail?_hex hex,
      Option.map_map]
    rfl
  · rw [written, List.singleton_append, stringTail?_cons, noQuote, noEscape, noFeed]
    rfl

/-- A literal that was written is one string, whatever stands behind it. -/
theorem stringLength?_encode (t rest : Text) :
    stringLength? (encode t ++ rest) = some (encode t).length := by
  have tail : stringTail? '"' (t.flatMap encodePoint ++ .scalar '"' :: rest) =
      some ((t.flatMap encodePoint).length + 1) := by
    induction t with
    | nil => exact stringTail?_cons ..
    | cons c t ih =>
      rw [List.flatMap_cons, List.append_assoc, stringTail?_encodePoint, ih, List.length_append,
        Option.map_some, Nat.add_right_comm, Nat.add_comm (encodePoint c).length]
  rw [encode, List.cons_append, List.cons_append, List.append_assoc, List.singleton_append,
    stringLength?, tail, List.length_cons, List.length_append]
  rfl

end Lexeme

end StyleBinding
