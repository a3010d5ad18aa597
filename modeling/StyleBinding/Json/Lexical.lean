import StyleBinding.Source.Cursor
import StyleBinding.Text.Hexadecimal
import StyleBinding.Text.Position
import StyleBinding.Value.Scalar

/-!
# Lexemes of JSON

The tokens that a JSON text is made of: blanks, words, numbers and strings, and
the ways in which a text fails to be JSON. A number without fraction and
exponent is an integer of any size up to a limit on its digits; any other is the
nearest floating-point number. Two escapes that write the halves of a surrogate
pair in their order stand for one code point.
-/

namespace StyleBinding.Json

/-- What is wrong with a JSON text. -/
inductive Cause where
  | byteOrderMark
  | expectedValue
  | expectedName
  | expectedColon
  | expectedComma
  | trailingText
  | unterminatedString
  | controlCharacter
  | unknownEscape
  | unfinishedEscape
deriving DecidableEq

/-- The wording of a cause. -/
def Cause.message : Cause → String
  | byteOrderMark => "Unexpected UTF-8 BOM (decode using utf-8-sig)"
  | expectedValue => "Expecting value"
  | expectedName => "Expecting property name enclosed in double quotes"
  | expectedColon => "Expecting ':' delimiter"
  | expectedComma => "Expecting ',' delimiter"
  | trailingText => "Extra data"
  | unterminatedString => "Unterminated string starting at"
  | controlCharacter => "Invalid control character at"
  | unknownEscape => "Invalid \\escape"
  | unfinishedEscape => "Invalid \\uXXXX escape"

/-- Why a text cannot be read: it is not JSON, or it holds an integer with more
digits than the limit. -/
inductive ReadError where
  | malformed (cause : Cause) (offset : Nat)
  | oversizedInteger
deriving DecidableEq

/-- The wording of a fault at an offset of a text, with line, column and offset. -/
def Cause.report (cause : Cause) (source : Text) (offset : Nat) : Text :=
  let p := source.positionAt offset
  cause.message ++ ": line " ++ Text.ofNat p.line ++ " column " ++ Text.ofNat p.column ++
    " (char " ++ Text.ofNat offset ++ ")"

/-! ## Blanks -/

/-- Whether a code point may stand between tokens. -/
def isBlank (c : CodePoint) : Bool := c.is ' ' || c.is '\t' || c.is '\n' || c.is '\r'

/-- Moves past blanks. -/
def skipBlanks (c : Cursor) : { d : Cursor // c.Upto d } :=
  ⟨c.advance (Text.countWhile isBlank c.rest), Cursor.upto_advance (Text.countWhile_le ..)⟩

/-! ## Numbers -/

/-- The most digits that an integer may have. -/
def digitLimit : Nat := 4300

/-- Whether a code point is one of the ten digits. -/
def isDigit (c : CodePoint) : Bool := c.isIn Char.isDigit

/-- The length of the whole part at the head of a text: a zero, or digits that do
not begin with one. -/
def wholeLength (t : Text) : Nat :=
  if t.startsWith "0" then 1 else Text.countWhile isDigit t

/-- The length of the fraction at the head of a text, its point included. -/
def fractionLength (t : Text) : Nat :=
  if t.startsWith "." && Text.countWhile isDigit (t.drop 1) != 0 then
    Text.countWhile isDigit (t.drop 1) + 1
  else 0

/-- The length of the exponent at the head of a text, its letter included. -/
def exponentLength (t : Text) : Nat :=
  if t.startsWith "e" || t.startsWith "E" then
    let unsigned : Text := t.drop 1
    let signLength := if unsigned.startsWith "+" || unsigned.startsWith "-" then 1 else 0
    let digits := Text.countWhile isDigit (t.drop (1 + signLength))
    if digits = 0 then 0 else 1 + signLength + digits
  else 0

/-- The number that digits write, other code points left out. -/
def digitsValue (t : Text) : Nat :=
  t.foldl (fun n c => if isDigit c then 10 * n + (c.toNat - '0'.toNat) else n) 0

/-- The number at the head of a text and its length. -/
def number? (t : Text) : Option (Except ReadError Scalar × Nat) :=
  let negative := t.startsWith "-"
  let signLength := if negative then 1 else 0
  let unsigned := t.drop signLength
  let whole := wholeLength unsigned
  let fraction := fractionLength (unsigned.drop whole)
  let exponent := exponentLength (unsigned.drop (whole + fraction))
  if whole = 0 then none
  else
    let length := signLength + whole + fraction + exponent
    if fraction = 0 ∧ exponent = 0 then
      if digitLimit < whole then some (.error .oversizedInteger, length)
      else
        let n : Int := digitsValue (unsigned.take whole)
        some (.ok (.integer (if negative then -n else n)), length)
    else
      let written := (unsigned.drop (whole + fraction)).take exponent
      let power : Int := digitsValue written
      let scale := if written.contains (.scalar '-') then -power else power
      let digits := digitsValue (unsigned.take (whole + fraction))
      some (.ok (.double (.ofDecimal negative digits (scale - (fraction - 1 : Nat)))), length)

/-- The scalar that a word at the head of a text stands for, and its length. -/
def word? (t : Text) : Option (Scalar × Nat) :=
  if t.startsWith "null" then some (.null, 4)
  else if t.startsWith "true" then some (.boolean true, 4)
  else if t.startsWith "false" then some (.boolean false, 5)
  else if t.startsWith "NaN" then some (.double (.nan 0), 3)
  else if t.startsWith "Infinity" then some (.double (.infinite false), 8)
  else if t.startsWith "-Infinity" then some (.double (.infinite true), 9)
  else none

/-- The scalar at the head of a text that is no string, and its length. -/
def scalar? (t : Text) : Option (Except ReadError Scalar × Nat) :=
  match word? t with
  | some (s, length) => some (.ok s, length)
  | none => number? t

/-! ## Strings -/

/-- The code point that a single-letter escape stands for. -/
def letterEscape? (c : CodePoint) : Option CodePoint :=
  if c.is '"' || c.is '\\' || c.is '/' then some c
  else if c.is 'b' then some (.scalar '\x08')
  else if c.is 'f' then some (.scalar '\x0c')
  else if c.is 'n' then some (.scalar '\n')
  else if c.is 'r' then some (.scalar '\r')
  else if c.is 't' then some (.scalar '\t')
  else none

/-- The number that four hexadecimal digits at the head of a text write. The
string has to go on behind them. -/
def fourDigits? (t : Text) : Option Nat :=
  if 4 < t.length && 4 ≤ Text.countWhile (·.isHex) t then some (Text.hexNumber (t.take 4))
  else none

/-- The code point that two halves of a surrogate pair make. -/
def pair? (first second : Nat) : Option CodePoint :=
  if 0xD800 ≤ first ∧ first < 0xDC00 ∧ 0xDC00 ≤ second ∧ second < 0xE000 then
    CodePoint.ofNat? (0x10000 + (first - 0xD800) * 0x400 + (second - 0xDC00))
  else none

/-- What an escape by number stands for and how many code points it takes behind
its letter. The offset is that of its backslash. A first half followed by an
escape by number and more text is taken with it if that is a second half. -/
def numberEscape (offset : Nat) (t : Text) : Except ReadError (CodePoint × Nat) :=
  match fourDigits? t with
  | none => .error (.malformed .unfinishedEscape (offset + 1))
  | some first =>
    let alone := ((CodePoint.ofNat? first).getD (.scalar '\x00'), 4)
    let rest : Text := t.drop 4
    if 0xD800 ≤ first ∧ first < 0xDC00 ∧ 6 < rest.length ∧ rest.startsWith "\\u" then
      match fourDigits? (rest.drop 2) with
      | none => .error (.malformed .unfinishedEscape (offset + 7))
      | some second => .ok (((pair? first second).map (·, 10)).getD alone)
    else .ok alone

/-- What the escape behind a backslash stands for and how many code points it
takes. The offset is that of the backslash, `opening` that of the string. -/
def escape (opening offset : Nat) : Text → Except ReadError (CodePoint × Nat)
  | [] => .error (.malformed .unterminatedString opening)
  | c :: rest =>
    if c.is 'u' then (numberEscape offset rest).map fun (x, length) => (x, length + 1)
    else
      match letterEscape? c with
      | some x => .ok (x, 1)
      | none => .error (.malformed .unknownEscape offset)

/-- Reads a string whose opening quote has been read. `read` holds what it stands
for so far, the last code point first. -/
def stringBody (opening : Nat) (read : Text) (c : Cursor) :
    Except ReadError (Text × { d : Cursor // c.Past d }) :=
  match hr : c.rest with
  | [] => .error (.malformed .unterminatedString opening)
  | x :: rest =>
    have next := Cursor.past_of_cons hr
    have _shorter := next.length_lt
    if x.is '"' then .ok (read.reverse, ⟨_, next⟩)
    else if x.is '\\' then
      match escape opening c.offset rest with
      | .error e => .error e
      | .ok (meaning, length) =>
        if fits : length ≤ rest.length then
          have past : c.Past (c.advance (length + 1)) :=
            Cursor.past_advance (Nat.succ_pos _) (by rw [hr]; simpa using fits)
          have _shorter' := past.length_lt
          match stringBody opening (meaning :: read) (c.advance (length + 1)) with
          | .error e => .error e
          | .ok (text, ⟨d, hd⟩) => .ok (text, ⟨d, past.trans hd⟩)
        else .error (.malformed .unterminatedString opening)
    else if x.toNat < 0x20 then .error (.malformed .controlCharacter c.offset)
    else
      match stringBody opening (x :: read) (c.advance 1) with
      | .error e => .error e
      | .ok (text, ⟨d, hd⟩) => .ok (text, ⟨d, next.trans hd⟩)
termination_by c.rest.length

end StyleBinding.Json
