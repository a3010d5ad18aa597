import StyleBinding.Text.Hexadecimal
import StyleBinding.Value.Entries

/-!
# Writing JSON

A value is written with one item or member a line, indented by two spaces a
level, and with members in ascending order of their names. The text is plain
ASCII: other code points are written as escapes, those beyond the first plane
as two.
-/

namespace StyleBinding.Json

/-- Why a value cannot be written: a name that is no scalar, or names that cannot
be put in order. -/
inductive WriteError where
  | compoundName
  | unorderedNames
deriving DecidableEq

/-! ## Strings -/

/-- An escape by number. -/
def escapeNumber (n : Nat) : Text := "\\u" ++ Text.ofHex 4 n

/-- One code point inside a string. -/
def writePoint (c : CodePoint) : Text :=
  if c.is '"' then "\\\""
  else if c.is '\\' then "\\\\"
  else if c.is '\n' then "\\n"
  else if c.is '\r' then "\\r"
  else if c.is '\t' then "\\t"
  else if c.is '\x0c' then "\\f"
  else if c.is '\x08' then "\\b"
  else if 0x20 ≤ c.toNat && c.toNat < 0x7f then [c]
  else if c.toNat < 0x10000 then escapeNumber c.toNat
  else
    let n := c.toNat - 0x10000
    escapeNumber (0xD800 + n / 0x400) ++ escapeNumber (0xDC00 + n % 0x400)

/-- A text as a string. -/
def writeString (t : Text) : Text := "\"" ++ t.flatMap writePoint ++ "\""

/-! ## Scalars and names -/

/-- A number that is not an integer. -/
def writeDouble : Double → Text
  | .nan _ => "NaN"
  | .infinite negative => if negative then "-Infinity" else "Infinity"
  | x => x.display

/-- The word or number of a scalar; a text is its own. -/
def scalarWord : Scalar → Text
  | .null => "null"
  | .boolean b => if b then "true" else "false"
  | .integer n => Text.ofInt n
  | .double x => writeDouble x
  | .text t => t

/-- A scalar as a value. -/
def writeScalar : Scalar → Text
  | .text t => writeString t
  | s => scalarWord s

/-- The scalar that names a member. -/
def nameOf : Key → Except WriteError Scalar
  | .scalar s => .ok s
  | .tuple _ => .error .compoundName

/-! ## Order of members -/

/-- A member with its value written out. -/
structure Member where
  name : Scalar
  written : Text

/-- Whether a member comes before another one. -/
def Member.before (m n : Member) : Except WriteError Bool :=
  match m.name.less? n.name with
  | some before => .ok before
  | none => .error .unorderedNames

/-- How many members from `m` on, with those that follow it, are in order already:
each before the last one if `falling`, and none before the last one otherwise. -/
def runLength (falling : Bool) (m : Member) : List Member → Except WriteError Nat
  | [] => .ok 1
  | n :: rest =>
    match n.before m with
    | .error e => .error e
    | .ok before => if before = falling then (runLength falling n rest).map (· + 1) else .ok 1

/-- Puts a member into an ascending list, by halving the list. -/
def insertMember (sorted : List Member) (m : Member) : Except WriteError (List Member) :=
  match h : sorted.drop (sorted.length / 2) with
  | [] => .ok [m]
  | n :: behind =>
    have _shorter : sorted.length / 2 + (behind.length + 1) = sorted.length := by
      have := congrArg List.length h
      simp only [List.length_drop, List.length_cons] at this
      omega
    let front := sorted.take (sorted.length / 2)
    match m.before n with
    | .error e => .error e
    | .ok true => (insertMember front m).map (· ++ n :: behind)
    | .ok false => (insertMember behind m).map (front ++ n :: ·)
termination_by sorted.length

/-- The members in ascending order of their names. The run that is in order
already is kept, and the members behind it are put into it one by one, which
settles where a name goes that no name lies before or behind. -/
def sortMembers : List Member → Except WriteError (List Member)
  | m :: n :: rest => do
    let falling ← n.before m
    let length ← runLength falling m (n :: rest)
    let run := (m :: n :: rest).take length
    ((m :: n :: rest).drop length).foldlM insertMember (if falling then run.reverse else run)
  | members => .ok members

/-! ## Values -/

/-- A line break and the indentation of a level. -/
def lineBreak (level : Nat) : Text := .scalar '\n' :: List.replicate (2 * level) (.scalar ' ')

/-- Parts between two marks, one a line. -/
def enclose (opening closing : String) (level : Nat) (parts : List Text) : Text :=
  if parts.isEmpty then opening ++ closing
  else
    opening ++ lineBreak (level + 1) ++ Text.join ("," ++ lineBreak (level + 1)) parts ++
      lineBreak level ++ closing

/-- A member on its line. -/
def writeMember (m : Member) : Text := writeString (scalarWord m.name) ++ ": " ++ m.written

mutual
/-- A value at a level. -/
def writeValue (level : Nat) : Value → Except WriteError Text
  | .scalar s => .ok (writeScalar s)
  | .list items => (writeItems (level + 1) items).map (enclose "[" "]" level)
  | .tuple items => (writeItems (level + 1) items).map (enclose "[" "]" level)
  | .mapping entries =>
    match writeEntries (level + 1) entries with
    | .error e => .error e
    | .ok members =>
      (sortMembers members).map fun sorted =>
        enclose "\x7b" "\x7d" level (sorted.map writeMember)

/-- The items of a list at a level. -/
def writeItems (level : Nat) : List Value → Except WriteError (List Text)
  | [] => .ok []
  | item :: rest =>
    match writeValue level item, writeItems level rest with
    | .ok first, .ok others => .ok (first :: others)
    | .error e, _ => .error e
    | _, .error e => .error e

/-- The members of an object at a level. -/
def writeEntries (level : Nat) : List (Key × Value) → Except WriteError (List Member)
  | [] => .ok []
  | (key, value) :: rest =>
    match nameOf key, writeValue level value, writeEntries level rest with
    | .ok name, .ok written, .ok others => .ok (⟨name, written⟩ :: others)
    | .error e, _, _ => .error e
    | _, .error e, _ => .error e
    | _, _, .error e => .error e
end

/-- A value as a JSON text. -/
def write (v : Value) : Except WriteError Text := writeValue 0 v

end StyleBinding.Json
