import StyleBinding.Proofs.Source.Encoding
import StyleBinding.Proofs.Text.Utf8

/-!
# Texts read back from bytes

The UTF-8 form of a text is read as that text, so different texts have different forms.
Hence a text without carriage returns that is written over the file whose text was read
leaves the bytes of the file as they are in no other case than that it is the text that
was read.
-/

namespace StyleBinding.Text

variable {x : Char} {p : CodePoint} {a b c d : UInt8} {rest content : Bytes} {source t : Text}
  {n : Nat}

/-! ## One code point -/

-- The bound stands in digits here, so that it is a goal for `omega`.
theorem toNat_byte (small : n < 0x100) : (UInt8.ofNat n).toNat = n :=
  UInt8.toNat_ofNat_of_lt' small

theorem trailingBits?_trailingByte (n : Nat) :
    trailingBits? (trailingByte n) = some (n % 0x40) := by
  have number : (trailingByte n).toNat = 0x80 + n % 0x40 := toNat_byte (by omega)
  have least : (0x80 : UInt8) ≤ trailingByte n := UInt8.le_iff_toNat_le.2 (by simp [number])
  have less : trailingByte n < 0xC0 := UInt8.lt_iff_toNat_lt.2 (by simp [number]; omega)
  rw [trailingBits?, if_pos (by simp [least, less]), number, Nat.add_sub_cancel_left]

/-- A number made of the bits of several bytes is read if it is that of a scalar value. -/
theorem scalarFrom?_of_eq {least : Nat} (same : n = x.toNat) (reached : least ≤ x.toNat) :
    scalarFrom? least n = some (.scalar x) := by
  have isPoint : CodePoint.ofNat? x.toNat = some (.scalar x) := CodePoint.ofNat?_toNat (.scalar x)
  rw [same, scalarFrom?, if_pos reached, isPoint]
  rfl

/-! ## The first byte

It says how many bytes the code point has. -/

theorem ofUtf8?_ascii_cons (ascii : a.toNat < 0x80) (read : CodePoint.ofNat? a.toNat = some p) :
    ofUtf8? (a :: rest) = (ofUtf8? rest).map (p :: ·) := by
  have ascii : a < 0x80 := UInt8.lt_iff_toNat_lt.2 ascii
  rw [ofUtf8?.eq_def]
  dsimp only
  rw [if_pos ascii, read]
  cases ofUtf8? rest <;> rfl

theorem ofUtf8?_two_cons (leading : 0xC0 ≤ a.toNat) (short : a.toNat < 0xE0)
    (read : ofTwoBytes? a b = some p) :
    ofUtf8? (a :: b :: rest) = (ofUtf8? rest).map (p :: ·) := by
  have leading : ¬ a < 0xC0 := UInt8.not_lt.2 (UInt8.le_iff_toNat_le.2 leading)
  have noAscii : ¬ a < 0x80 := fun ascii => leading (UInt8.lt_trans ascii (by decide))
  have short : a < 0xE0 := UInt8.lt_iff_toNat_lt.2 short
  rw [ofUtf8?.eq_def]
  dsimp only
  rw [if_neg noAscii, if_neg leading, if_pos short, read]
  cases ofUtf8? rest <;> rfl

theorem ofUtf8?_three_cons (long : 0xE0 ≤ a.toNat) (short : a.toNat < 0xF0)
    (read : ofThreeBytes? a b c = some p) :
    ofUtf8? (a :: b :: c :: rest) = (ofUtf8? rest).map (p :: ·) := by
  have long : ¬ a < 0xE0 := UInt8.not_lt.2 (UInt8.le_iff_toNat_le.2 long)
  have leading : ¬ a < 0xC0 := fun less => long (UInt8.lt_trans less (by decide))
  have noAscii : ¬ a < 0x80 := fun ascii => leading (UInt8.lt_trans ascii (by decide))
  have short : a < 0xF0 := UInt8.lt_iff_toNat_lt.2 short
  rw [ofUtf8?.eq_def]
  dsimp only
  rw [if_neg noAscii, if_neg leading, if_neg long, if_pos short, read]
  cases ofUtf8? rest <;> rfl

theorem ofUtf8?_four_cons (longer : 0xF0 ≤ a.toNat) (read : ofFourBytes? a b c d = some p) :
    ofUtf8? (a :: b :: c :: d :: rest) = (ofUtf8? rest).map (p :: ·) := by
  have longer : ¬ a < 0xF0 := UInt8.not_lt.2 (UInt8.le_iff_toNat_le.2 longer)
  have long : ¬ a < 0xE0 := fun less => longer (UInt8.lt_trans less (by decide))
  have leading : ¬ a < 0xC0 := fun less => long (UInt8.lt_trans less (by decide))
  have noAscii : ¬ a < 0x80 := fun ascii => leading (UInt8.lt_trans ascii (by decide))
  rw [ofUtf8?.eq_def]
  dsimp only
  rw [if_neg noAscii, if_neg leading, if_neg long, if_neg longer, read]
  cases ofUtf8? rest <;> rfl

/-! ## The form of a scalar value -/

theorem ofTwoBytes?_form (least : 0x80 ≤ x.toNat) (less : x.toNat < 0x800) :
    ofTwoBytes? (UInt8.ofNat (0xC0 + x.toNat / 0x40)) (trailingByte x.toNat) =
      some (.scalar x) := by
  rw [ofTwoBytes?, trailingBits?_trailingByte, toNat_byte (by omega)]
  exact scalarFrom?_of_eq (by omega) least

theorem ofThreeBytes?_form (least : 0x800 ≤ x.toNat) (less : x.toNat < 0x10000) :
    ofThreeBytes? (UInt8.ofNat (0xE0 + x.toNat / 0x1000)) (trailingByte (x.toNat / 0x40))
      (trailingByte x.toNat) = some (.scalar x) := by
  rw [ofThreeBytes?, trailingBits?_trailingByte, trailingBits?_trailingByte,
    toNat_byte (by omega)]
  exact scalarFrom?_of_eq (by omega) least

theorem ofFourBytes?_form (least : 0x10000 ≤ x.toNat) :
    ofFourBytes? (UInt8.ofNat (0xF0 + x.toNat / 0x40000)) (trailingByte (x.toNat / 0x1000))
      (trailingByte (x.toNat / 0x40)) (trailingByte x.toNat) = some (.scalar x) := by
  have limit : x.toNat < 0x110000 := CodePoint.toNat_lt (.scalar x)
  rw [ofFourBytes?, trailingBits?_trailingByte, trailingBits?_trailingByte,
    trailingBits?_trailingByte, toNat_byte (by omega)]
  exact scalarFrom?_of_eq (by omega) least

theorem ofUtf8?_utf8OfNat_append (x : Char) (rest : Bytes) :
    ofUtf8? (utf8OfNat x.toNat ++ rest) = (ofUtf8? rest).map (.scalar x :: ·) := by
  have limit : x.toNat < 0x110000 := CodePoint.toNat_lt (.scalar x)
  by_cases one : x.toNat < 0x80
  · have number := toNat_byte (Nat.lt_trans one (by decide))
    rw [utf8OfNat, if_pos one]
    refine ofUtf8?_ascii_cons (by omega) ?_
    rw [number]
    exact CodePoint.ofNat?_toNat (.scalar x)
  by_cases two : x.toNat < 0x800
  · have number : (UInt8.ofNat (0xC0 + x.toNat / 0x40)).toNat = _ := toNat_byte (by omega)
    rw [utf8OfNat, if_neg one, if_pos two]
    exact ofUtf8?_two_cons (by omega) (by omega) (ofTwoBytes?_form (by omega) two)
  by_cases three : x.toNat < 0x10000
  · have number : (UInt8.ofNat (0xE0 + x.toNat / 0x1000)).toNat = _ := toNat_byte (by omega)
    rw [utf8OfNat, if_neg one, if_neg two, if_pos three]
    exact ofUtf8?_three_cons (by omega) (by omega) (ofThreeBytes?_form (by omega) three)
  · have number : (UInt8.ofNat (0xF0 + x.toNat / 0x40000)).toNat = _ := toNat_byte (by omega)
    rw [utf8OfNat, if_neg one, if_neg two, if_neg three]
    exact ofUtf8?_four_cons (by omega) (ofFourBytes?_form (by omega))

/-! ## Texts -/

/-- What is written is read back. -/
theorem ofUtf8?_of_toUtf8? (h : toUtf8? t = some content) : ofUtf8? content = some t := by
  induction t generalizing content with
  | nil =>
    cases h
    rfl
  | cons c t ih =>
    cases c with
    | surrogate i => cases h
    | scalar x =>
      obtain ⟨rest, form, rfl⟩ := Option.map_eq_some_iff.1 h
      rw [ofUtf8?_utf8OfNat_append, ih form]
      rfl

/-- A text without carriage returns that is written as the bytes which a text was read from
is that text. -/
theorem eq_of_written (read : ofFile? content = some source) (noReturn : .scalar '\r' ∉ t)
    (form : toUtf8? t = some content) : t = source := by
  rw [ofFile?, ofUtf8?_of_toUtf8? form] at read
  cases read
  exact (unifyLineEnds_eq_self_iff.2 noReturn).symm

end StyleBinding.Text
