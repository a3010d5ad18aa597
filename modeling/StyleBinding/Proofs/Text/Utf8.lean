import Mathlib.Data.List.Basic
import StyleBinding.Text.Utf8

/-!
# Texts read from bytes

Bytes that can be read are the UTF-8 form of what was read, so a text can be
written back; a text can be written if and only if it holds no surrogate. The text
of a file has line feeds for line ends, and it is what the bytes stand for if and
only if there is no carriage return among them.
-/

namespace StyleBinding

theorem CodePoint.toNat_of_ofNat? {n : Nat} {c : CodePoint} (h : ofNat? n = some c) :
    c.toNat = n := by
  by_cases valid : n.isValidChar
  · rw [ofNat?, dif_pos valid] at h
    cases h
    rfl
  · rw [ofNat?, dif_neg valid] at h
    by_cases half : 0xD800 ≤ n ∧ n < 0xE000
    · rw [dif_pos half] at h
      cases h
      exact Nat.add_sub_cancel' half.1
    · rw [dif_neg half] at h
      cases h

namespace Text

/-! ## One code point -/

theorem trailingBits?_eq_some {b : UInt8} {y : Nat} (h : trailingBits? b = some y) :
    y < 0x40 ∧ b.toNat = 0x80 + y := by
  rw [trailingBits?, Option.ite_none_right_eq_some, Bool.and_eq_true, decide_eq_true_eq,
    decide_eq_true_eq] at h
  obtain ⟨⟨least, less⟩, rfl⟩ := h.imp_right Option.some.inj
  have least : 0x80 ≤ b.toNat := UInt8.le_iff_toNat_le.1 least
  have less : b.toNat < 0xC0 := UInt8.lt_iff_toNat_lt.1 less
  omega

/-- A number with the bits of a trailing byte lowest is written with that byte. -/
theorem trailingByte_eq {b : UInt8} {y n : Nat} (bits : trailingBits? b = some y)
    (low : n % 0x40 = y) : trailingByte n = b := by
  rw [trailingByte, low, ← (trailingBits?_eq_some bits).2, UInt8.ofNat_toNat]

theorem scalarFrom?_eq_some {least n : Nat} {c : CodePoint} (h : scalarFrom? least n = some c) :
    least ≤ n ∧ ∃ x, c = .scalar x ∧ x.toNat = n := by
  unfold scalarFrom? at h
  split_ifs at h with reached
  obtain ⟨isPoint, scalar⟩ := Option.filter_eq_some_iff.1 h
  have number := CodePoint.toNat_of_ofNat? isPoint
  cases c with
  | scalar x => exact ⟨reached, x, rfl, number⟩
  | surrogate i => cases scalar

theorem ofTwoBytes?_eq_some {a b : UInt8} {c : CodePoint} (leading : 0xC0 ≤ a.toNat)
    (short : a.toNat < 0xE0) (h : ofTwoBytes? a b = some c) :
    ∃ x, c = .scalar x ∧ utf8OfNat x.toNat = [a, b] := by
  obtain ⟨y, bits, h⟩ := Option.bind_eq_some_iff.1 h
  obtain ⟨reached, x, rfl, number⟩ := scalarFrom?_eq_some h
  have small := (trailingBits?_eq_some bits).1
  have high : 0xC0 + x.toNat / 0x40 = a.toNat := by omega
  refine ⟨x, rfl, ?_⟩
  rw [utf8OfNat, if_neg (by omega), if_pos (by omega), high, UInt8.ofNat_toNat,
    trailingByte_eq bits (by omega)]

theorem ofThreeBytes?_eq_some {a b c : UInt8} {p : CodePoint} (leading : 0xE0 ≤ a.toNat)
    (short : a.toNat < 0xF0) (h : ofThreeBytes? a b c = some p) :
    ∃ x, p = .scalar x ∧ utf8OfNat x.toNat = [a, b, c] := by
  obtain ⟨y, bits, h⟩ := Option.bind_eq_some_iff.1 h
  obtain ⟨z, bits', h⟩ := Option.bind_eq_some_iff.1 h
  obtain ⟨reached, x, rfl, number⟩ := scalarFrom?_eq_some h
  have small := (trailingBits?_eq_some bits).1
  have small' := (trailingBits?_eq_some bits').1
  have high : 0xE0 + x.toNat / 0x1000 = a.toNat := by omega
  refine ⟨x, rfl, ?_⟩
  rw [utf8OfNat, if_neg (by omega), if_neg (by omega), if_pos (by omega), high,
    UInt8.ofNat_toNat, trailingByte_eq bits (by omega), trailingByte_eq bits' (by omega)]

theorem ofFourBytes?_eq_some {a b c d : UInt8} {p : CodePoint} (leading : 0xF0 ≤ a.toNat)
    (h : ofFourBytes? a b c d = some p) :
    ∃ x, p = .scalar x ∧ utf8OfNat x.toNat = [a, b, c, d] := by
  obtain ⟨y, bits, h⟩ := Option.bind_eq_some_iff.1 h
  obtain ⟨z, bits', h⟩ := Option.bind_eq_some_iff.1 h
  obtain ⟨w, bits'', h⟩ := Option.bind_eq_some_iff.1 h
  obtain ⟨reached, x, rfl, number⟩ := scalarFrom?_eq_some h
  have small := (trailingBits?_eq_some bits).1
  have small' := (trailingBits?_eq_some bits').1
  have small'' := (trailingBits?_eq_some bits'').1
  have high : 0xF0 + x.toNat / 0x40000 = a.toNat := by omega
  refine ⟨x, rfl, ?_⟩
  rw [utf8OfNat, if_neg (by omega), if_neg (by omega), if_neg (by omega), high,
    UInt8.ofNat_toNat, trailingByte_eq bits (by omega), trailingByte_eq bits' (by omega),
    trailingByte_eq bits'' (by omega)]

/-! ## Texts -/

theorem toUtf8?_scalar_cons (x : Char) {t : Text} {content : Bytes}
    (h : toUtf8? t = some content) :
    toUtf8? (.scalar x :: t) = some (utf8OfNat x.toNat ++ content) := by
  rw [toUtf8?, h]
  rfl

/-- Bytes that can be read are the UTF-8 form of what was read. -/
theorem toUtf8?_of_ofUtf8? {content : Bytes} {t : Text} (h : ofUtf8? content = some t) :
    toUtf8? t = some content := by
  fun_induction ofUtf8? content generalizing t with
  | case1 =>
    cases h
    rfl
  | case2 a rest ascii ih =>
    obtain ⟨c, isPoint, h⟩ := Option.bind_eq_some_iff.1 h
    obtain ⟨tail, read, h⟩ := Option.bind_eq_some_iff.1 h
    cases h
    have small : a.toNat < 0x80 := UInt8.lt_iff_toNat_lt.1 ascii
    have number := CodePoint.toNat_of_ofNat? isPoint
    cases c with
    | scalar x =>
      change x.toNat = a.toNat at number
      rw [toUtf8?_scalar_cons x (ih read), utf8OfNat, if_pos (by omega), number,
        UInt8.ofNat_toNat]
      rfl
    | surrogate i =>
      rw [CodePoint.toNat] at number
      omega
  | case3 | case4 | case6 | case8 => cases h
  | case5 a noAscii leading b rest short ih =>
    obtain ⟨c, isPoint, h⟩ := Option.bind_eq_some_iff.1 h
    obtain ⟨tail, read, h⟩ := Option.bind_eq_some_iff.1 h
    cases h
    have least : 0xC0 ≤ a.toNat := UInt8.le_iff_toNat_le.1 (UInt8.not_lt.1 leading)
    obtain ⟨x, rfl, written⟩ :=
      ofTwoBytes?_eq_some least (UInt8.lt_iff_toNat_lt.1 short) isPoint
    rw [toUtf8?_scalar_cons x (ih read), written]
    rfl
  | case7 a noAscii leading b long c rest short ih =>
    obtain ⟨p, isPoint, h⟩ := Option.bind_eq_some_iff.1 h
    obtain ⟨tail, read, h⟩ := Option.bind_eq_some_iff.1 h
    cases h
    have least : 0xE0 ≤ a.toNat := UInt8.le_iff_toNat_le.1 (UInt8.not_lt.1 long)
    obtain ⟨x, rfl, written⟩ :=
      ofThreeBytes?_eq_some least (UInt8.lt_iff_toNat_lt.1 short) isPoint
    rw [toUtf8?_scalar_cons x (ih read), written]
    rfl
  | case9 a noAscii leading b long c longer d rest ih =>
    obtain ⟨p, isPoint, h⟩ := Option.bind_eq_some_iff.1 h
    obtain ⟨tail, read, h⟩ := Option.bind_eq_some_iff.1 h
    cases h
    have least : 0xF0 ≤ a.toNat := UInt8.le_iff_toNat_le.1 (UInt8.not_lt.1 longer)
    obtain ⟨x, rfl, written⟩ := ofFourBytes?_eq_some least isPoint
    rw [toUtf8?_scalar_cons x (ih read), written]
    rfl

/-- A text without surrogates. -/
def Encodable (t : Text) : Prop := ∀ c ∈ t, c.isSurrogate = false

/-- A text has a UTF-8 form if and only if it holds no surrogate. -/
theorem toUtf8?_isSome_iff {t : Text} : (toUtf8? t).isSome ↔ t.Encodable := by
  rw [Encodable]
  induction t with
  | nil => simp [toUtf8?]
  | cons c t ih =>
    cases c with
    | scalar x => simp [toUtf8?, ih, CodePoint.isSurrogate]
    | surrogate i => simp [toUtf8?, CodePoint.isSurrogate]

theorem encodable_ofString (s : String) : (ofString s).Encodable := by
  intro c inside
  obtain ⟨x, _, rfl⟩ := List.mem_map.1 inside
  rfl

theorem Encodable.not_mem {t : Text} {c : CodePoint} (h : t.Encodable)
    (half : c.isSurrogate = true) : c ∉ t := by
  intro inside
  rw [h c inside] at half
  cases half

/-- The form of a scalar value has an ASCII byte in it only if it is one. -/
theorem mem_utf8OfNat {n : Nat} {b : UInt8} (scalar : n < 0x110000) (ascii : b.toNat < 0x80) :
    b ∈ utf8OfNat n ↔ n = b.toNat := by
  have apart {m : Nat} (high : 0x80 ≤ m) (low : m < 0x100) : b ≠ UInt8.ofNat m := by
    intro same
    have := congrArg UInt8.toNat same
    rw [UInt8.toNat_ofNat_of_lt' low] at this
    omega
  have trailing (m : Nat) : b ≠ trailingByte m := apart (by omega) (by omega)
  by_cases small : n < 0x80
  · rw [utf8OfNat, if_pos small, List.mem_singleton]
    constructor
    · intro same
      rw [same, UInt8.toNat_ofNat_of_lt' (Nat.lt_trans small (by decide))]
    · intro same
      rw [same, UInt8.ofNat_toNat]
  · refine iff_of_false (fun inside => ?_) (by omega)
    rw [utf8OfNat, if_neg small] at inside
    split_ifs at inside
    all_goals
      simp only [List.mem_cons, List.not_mem_nil, or_false, trailing] at inside
      exact apart (by omega) (by omega) inside

theorem mem_iff_of_toUtf8? {t : Text} {content : Bytes} {b : UInt8} {x : Char}
    (form : toUtf8? t = some content) (ascii : b.toNat < 0x80) (same : x.toNat = b.toNat) :
    b ∈ content ↔ .scalar x ∈ t := by
  induction t generalizing content with
  | nil =>
    cases form
    simp
  | cons c t ih =>
    cases c with
    | surrogate i => cases form
    | scalar y =>
      obtain ⟨rest, tail, rfl⟩ := Option.map_eq_some_iff.1 form
      have number : b ∈ utf8OfNat y.toNat ↔ x = y := by
        have scalar : y.toNat < 0x110000 := CodePoint.toNat_lt (.scalar y)
        rw [mem_utf8OfNat scalar ascii, ← same]
        exact ⟨fun h => (Char.toNat_inj.1 h).symm, fun h => h ▸ rfl⟩
      rw [List.mem_append, List.mem_cons, ih tail, number, CodePoint.scalar_inj]

/-! ## Line ends -/

theorem mem_unifyLineEnds {t : Text} {c : CodePoint} (h : c ∈ unifyLineEnds t) :
    c = .scalar '\n' ∨ c ∈ t := by
  fun_induction unifyLineEnds t with
  | case1 => cases h
  | case2 d isReturn => exact .inl (List.mem_singleton.1 h)
  | case3 d isReturn e rest isFeed ih | case4 d isReturn e rest noFeed ih =>
    obtain rfl | inRest := List.mem_cons.1 h
    · exact .inl rfl
    · have := ih inRest
      simp only [List.mem_cons] at this ⊢
      tauto
  | case5 d rest noReturn ih =>
    obtain rfl | inRest := List.mem_cons.1 h
    · exact .inr List.mem_cons_self
    · exact (ih inRest).imp_right (List.mem_cons_of_mem d)

theorem return_not_mem_unifyLineEnds (t : Text) : .scalar '\r' ∉ unifyLineEnds t := by
  fun_induction unifyLineEnds t with
  | case1 => exact List.not_mem_nil
  | case2 d isReturn => decide
  | case3 d isReturn e rest isFeed ih | case4 d isReturn e rest noFeed ih =>
    rw [List.mem_cons, not_or]
    exact ⟨by decide, ih⟩
  | case5 d rest noReturn ih =>
    rw [List.mem_cons, not_or]
    refine ⟨fun same => ?_, ih⟩
    rw [← same] at noReturn
    exact noReturn (CodePoint.is_iff.2 rfl)

theorem unifyLineEnds_eq_self_iff {t : Text} :
    unifyLineEnds t = t ↔ .scalar '\r' ∉ t := by
  refine ⟨fun same => same ▸ return_not_mem_unifyLineEnds t, fun none => ?_⟩
  induction t with
  | nil => rfl
  | cons c t ih =>
    rw [List.mem_cons, not_or] at none
    have noReturn : ¬ c.is '\r' = true := fun same => none.1 (CodePoint.is_iff.1 same).symm
    rw [unifyLineEnds.eq_def]
    dsimp only
    rw [if_neg noReturn, ih none.2]

/-- The text of a file can be written, and what is written is the file if and only if
there is no carriage return in it. -/
theorem toUtf8?_of_ofFile? {content : Bytes} {source : Text}
    (read : ofFile? content = some source) :
    ∃ written, toUtf8? source = some written ∧ (written = content ↔ 0x0D ∉ content) := by
  obtain ⟨t, decoded, rfl⟩ := Option.map_eq_some_iff.1 read
  have form := toUtf8?_of_ofUtf8? decoded
  have clear : (unifyLineEnds t).Encodable := by
    intro c inside
    obtain rfl | inside := mem_unifyLineEnds inside
    · rfl
    · exact toUtf8?_isSome_iff.1 (form ▸ rfl) c inside
  obtain ⟨written, new⟩ := Option.isSome_iff_exists.1 (toUtf8?_isSome_iff.2 clear)
  have held (u : Text) {bytes : Bytes} (h : toUtf8? u = some bytes) :
      0x0D ∈ bytes ↔ .scalar '\r' ∈ u := mem_iff_of_toUtf8? h (by decide) rfl
  refine ⟨written, new, ?_, ?_⟩
  · rintro rfl
    rw [held _ new]
    exact return_not_mem_unifyLineEnds t
  · intro none
    rw [held _ form] at none
    rw [unifyLineEnds_eq_self_iff.2 none, form] at new
    exact (Option.some.inj new).symm

end Text

end StyleBinding
