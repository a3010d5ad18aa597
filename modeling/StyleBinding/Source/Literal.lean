import StyleBinding.Source.Refusal

/-!
# What string literals stand for

`Literal.decode` reads the text between the quotes of a string or template
literal, and `Literal.encode` writes a text as a double-quoted literal. Reading
knows more escapes than writing uses: by number in braces, in four or in two
hexadecimal digits, the single letters, and line continuations, which stand for
nothing. Any other escaped code point stands for itself. Halves of surrogate
pairs written one by one stay halves.
-/

namespace StyleBinding.Literal

/-! ## Reading -/

/-- The code point that a single-letter escape stands for. -/
def letterEscape (c : CodePoint) : CodePoint :=
  if c.is 'n' then .scalar '\n'
  else if c.is 't' then .scalar '\t'
  else if c.is 'r' then .scalar '\r'
  else if c.is 'b' then .scalar '\x08'
  else if c.is 'f' then .scalar '\x0c'
  else if c.is 'v' then .scalar '\x0b'
  else if c.is '0' then .scalar '\x00'
  else c

/-- Whether a backslash in front of a code point continues the line. -/
def isContinuation (c : CodePoint) : Bool :=
  c.is '\n' || c.is '\r' || c.is '\u2028' || c.is '\u2029'

/-- The code point with a given number, as a text. -/
def numbered (n : Nat) : Except EscapeBeyondLimit Text :=
  match CodePoint.ofNat? n with
  | some c => .ok [c]
  | none => .error ⟨n⟩

/-- A number in braces behind the letter of its escape: the length of braces and
digits, and the number. -/
def bracedNumber? : Text → Option (Nat × Nat)
  | .scalar '{' :: rest =>
    let digits := Text.countWhile (·.isHex) rest
    if digits != 0 && Text.startsWith (rest.drop digits) "\x7d" then
      some (digits + 2, Text.hexNumber (rest.take digits))
    else none
  | _ => none

/-- A number in a fixed count of hexadecimal digits. -/
def fixedNumber? (width : Nat) (t : Text) : Option (Nat × Nat) :=
  if width ≤ Text.countWhile (·.isHex) t then some (width, Text.hexNumber (t.take width))
  else none

/-- The number of an escape that gives one, with the length behind its letter. -/
def escapeNumber? (c : CodePoint) (rest : Text) : Option (Nat × Nat) :=
  if c.is 'u' then bracedNumber? rest <|> fixedNumber? 4 rest
  else if c.is 'x' then fixedNumber? 2 rest
  else none

/-- What the escape stands for that a backslash and `c` begin, and how many code
points of `rest` it takes. -/
def escape (c : CodePoint) (rest : Text) : Nat × Except EscapeBeyondLimit Text :=
  match escapeNumber? c rest with
  | some (length, n) => (length, numbered n)
  | none =>
    if isContinuation c then
      (if c.is '\r' && Text.startsWith rest "\n" then 1 else 0, .ok [])
    else (0, .ok [letterEscape c])

/-- Reads a text whose first `skip` code points belong to an escape already
read. A lone backslash at the end stands for itself. -/
def decodeAfter : Nat → Text → Except EscapeBeyondLimit Text
  | _, [] => .ok []
  | skip + 1, _ :: rest => decodeAfter skip rest
  | 0, c :: rest =>
    if c.is '\\' then
      match rest with
      | [] => .ok [c]
      | d :: more =>
        match escape d more with
        | (_, .error e) => .error e
        | (length, .ok meaning) =>
          match decodeAfter length more with
          | .error e => .error e
          | .ok tail => .ok (meaning ++ tail)
    else
      match decodeAfter 0 rest with
      | .error e => .error e
      | .ok tail => .ok (c :: tail)

/-- What the text between the quotes of a literal stands for. -/
def decode (body : Text) : Except EscapeBeyondLimit Text := decodeAfter 0 body

/-- What a literal stands for; its first and last code points are its quotes. -/
def decodeQuoted (raw : Text) : Except EscapeBeyondLimit Text := decode (raw.drop 1).dropLast

/-! ## Writing -/

/-- The short escape of a code point that has one. -/
def shortEscape? (c : CodePoint) : Option Char :=
  if c.is '"' then some '"'
  else if c.is '\\' then some '\\'
  else if c.is '\n' then some 'n'
  else if c.is '\r' then some 'r'
  else if c.is '\t' then some 't'
  else if c.is '\x0c' then some 'f'
  else if c.is '\x08' then some 'b'
  else none

/-- One code point inside a double-quoted literal: the two delimiters and the
control characters below the space are escaped. -/
def encodePoint (c : CodePoint) : Text :=
  match shortEscape? c with
  | some x => [.scalar '\\', .scalar x]
  | none => if c.toNat < 0x20 then "\\u" ++ Text.ofHex 4 c.toNat else [c]

/-- A text as a double-quoted literal. -/
def encode (t : Text) : Text := .scalar '"' :: t.flatMap encodePoint ++ [.scalar '"']

end StyleBinding.Literal
