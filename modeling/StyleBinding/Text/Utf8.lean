import StyleBinding.Text.Basic

/-!
# Texts as bytes

The UTF-8 form of a text. Every scalar value has one form, the shortest;
surrogates have none. Reading refuses every sequence of bytes that is no such
form, and can take each of the line ends in use for a line feed.
-/

namespace StyleBinding

/-- The content of a file. -/
abbrev Bytes := List UInt8

namespace Text

/-! ## Writing -/

/-- A byte that carries the low six bits of a number behind the leading byte. -/
def trailingByte (n : Nat) : UInt8 := UInt8.ofNat (0x80 + n % 0x40)

/-- The UTF-8 form of a scalar value by its number. -/
def utf8OfNat (n : Nat) : Bytes :=
  if n < 0x80 then [UInt8.ofNat n]
  else if n < 0x800 then [UInt8.ofNat (0xC0 + n / 0x40), trailingByte n]
  else if n < 0x10000 then
    [UInt8.ofNat (0xE0 + n / 0x1000), trailingByte (n / 0x40), trailingByte n]
  else
    [UInt8.ofNat (0xF0 + n / 0x40000), trailingByte (n / 0x1000), trailingByte (n / 0x40),
      trailingByte n]

/-- The UTF-8 form of a text, if it holds no surrogate. -/
def toUtf8? : Text → Option Bytes
  | [] => some []
  | .scalar c :: rest => (toUtf8? rest).map (utf8OfNat c.toNat ++ ·)
  | .surrogate _ :: _ => none

/-! ## Reading -/

/-- The bits that a byte carries behind a leading byte. -/
def trailingBits? (b : UInt8) : Option Nat :=
  if 0x80 ≤ b && b < 0xC0 then some (b.toNat - 0x80) else none

/-- The scalar value with a number not below a bound. -/
def scalarFrom? (least n : Nat) : Option CodePoint :=
  if least ≤ n then (CodePoint.ofNat? n).filter (!·.isSurrogate) else none

/-- The scalar value that two bytes write. -/
def ofTwoBytes? (a b : UInt8) : Option CodePoint := do
  let y ← trailingBits? b
  scalarFrom? 0x80 ((a.toNat - 0xC0) * 0x40 + y)

/-- The scalar value that three bytes write. -/
def ofThreeBytes? (a b c : UInt8) : Option CodePoint := do
  let y ← trailingBits? b
  let z ← trailingBits? c
  scalarFrom? 0x800 (((a.toNat - 0xE0) * 0x40 + y) * 0x40 + z)

/-- The scalar value that four bytes write. -/
def ofFourBytes? (a b c d : UInt8) : Option CodePoint := do
  let y ← trailingBits? b
  let z ← trailingBits? c
  let w ← trailingBits? d
  scalarFrom? 0x10000 ((((a.toNat - 0xF0) * 0x40 + y) * 0x40 + z) * 0x40 + w)

/-- The text that bytes are the UTF-8 form of. -/
def ofUtf8? : Bytes → Option Text
  | [] => some []
  | a :: rest =>
    if a < 0x80 then do
      let c ← CodePoint.ofNat? a.toNat
      return c :: (← ofUtf8? rest)
    else if a < 0xC0 then none
    else
      match rest with
      | [] => none
      | b :: rest =>
        if a < 0xE0 then do
          let c ← ofTwoBytes? a b
          return c :: (← ofUtf8? rest)
        else
          match rest with
          | [] => none
          | c :: rest =>
            if a < 0xF0 then do
              let c ← ofThreeBytes? a b c
              return c :: (← ofUtf8? rest)
            else
              match rest with
              | [] => none
              | d :: rest => do
                let c ← ofFourBytes? a b c d
                return c :: (← ofUtf8? rest)

/-! ## Line ends -/

/-- A text with every carriage return, and the line feed behind it if there is
one, made a line feed. -/
def unifyLineEnds : Text → Text
  | [] => []
  | c :: rest =>
    if c.is '\r' then
      match rest with
      | [] => [.scalar '\n']
      | d :: more =>
        if d.is '\n' then .scalar '\n' :: unifyLineEnds more
        else .scalar '\n' :: unifyLineEnds (d :: more)
    else c :: unifyLineEnds rest

/-- The text of a file, with line feeds for line ends. -/
def ofFile? (content : Bytes) : Option Text := (ofUtf8? content).map unifyLineEnds

end Text

end StyleBinding
