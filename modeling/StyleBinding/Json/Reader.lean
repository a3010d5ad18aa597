import StyleBinding.Json.Lexical
import StyleBinding.Value.Entries

/-!
# Reading JSON

A text is read as one value with nothing but blanks around it. An object becomes
a mapping from texts; of several members of one name the last gives the value
and the first the place. A text that is not JSON is refused where it first goes
wrong.
-/

namespace StyleBinding.Json

/-- The refusal of a text at a place. -/
def refuse {α : Type} (cause : Cause) (c : Cursor) : Except ReadError α :=
  .error (.malformed cause c.offset)

/-- Moves past a mark and the blanks behind it. -/
def mark? (x : Char) (c : Cursor) : Option { d : Cursor // c.Past d } :=
  match hr : c.rest with
  | [] => none
  | y :: _ =>
    if y.is x then
      let ⟨d, hd⟩ := skipBlanks (c.advance 1)
      some ⟨d, (Cursor.past_of_cons hr).trans_upto hd⟩
    else none

/-- Reads a mark that has to come next, and the blanks behind it. -/
def expectMark (x : Char) (cause : Cause) (c : Cursor) :
    Except ReadError { d : Cursor // c.Past d } :=
  match mark? x c with
  | some d => .ok d
  | none => refuse cause c

/-- Reads a string that has to come next. -/
def string (cause : Cause) (c : Cursor) : Except ReadError (Text × { d : Cursor // c.Past d }) :=
  match hr : c.rest with
  | [] => refuse cause c
  | x :: _ =>
    if x.is '"' then
      match stringBody c.offset [] (c.advance 1) with
      | .error e => .error e
      | .ok (text, ⟨d, hd⟩) => .ok (text, ⟨d, (Cursor.past_of_cons hr).trans hd⟩)
    else refuse cause c

/-- Reads a value that is neither a list nor an object. -/
def scalar (c : Cursor) : Except ReadError (Scalar × { d : Cursor // c.Past d }) :=
  if c.rest.startsWith "\"" then (string .expectedValue c).map fun (t, d) => (.text t, d)
  else
    match scalar? c.rest with
    | none => refuse .expectedValue c
    | some (.error e, _) => .error e
    | some (.ok s, length) =>
      if h : length ≤ c.rest.length ∧ 0 < length then
        .ok (s, ⟨_, Cursor.past_advance h.2 h.1⟩)
      else refuse .expectedValue c

mutual
/-- Reads a value. -/
def value (c : Cursor) : Except ReadError (Value × { d : Cursor // c.Past d }) :=
  match mark? '[' c, mark? '\x7b' c with
  | some ⟨d, hd⟩, _ =>
    have _shorter := hd.length_lt
    match mark? ']' d with
    | some ⟨e, he⟩ => .ok (.list [], ⟨e, hd.trans he⟩)
    | none =>
      match items d with
      | .error e => .error e
      | .ok (list, ⟨e, he⟩) => .ok (.list list, ⟨e, hd.trans he⟩)
  | none, some ⟨d, hd⟩ =>
    have _shorter := hd.length_lt
    match mark? '\x7d' d with
    | some ⟨e, he⟩ => .ok (.mapping [], ⟨e, hd.trans he⟩)
    | none =>
      match members [] d with
      | .error e => .error e
      | .ok (entries, ⟨e, he⟩) => .ok (.mapping entries, ⟨e, hd.trans he⟩)
  | none, none => (scalar c).map fun (s, d) => (.scalar s, d)
termination_by 2 * c.rest.length

/-- Reads the items of a list from the first one on, and the closing mark. -/
def items (c : Cursor) : Except ReadError (List Value × { d : Cursor // c.Past d }) :=
  match value c with
  | .error e => .error e
  | .ok (first, ⟨d, hd⟩) =>
    let ⟨e, he⟩ := skipBlanks d
    have past := hd.trans_upto he
    match mark? ']' e with
    | some ⟨f, hf⟩ => .ok ([first], ⟨f, past.trans hf⟩)
    | none =>
      match expectMark ',' .expectedComma e with
      | .error e => .error e
      | .ok ⟨f, hf⟩ =>
        have _shorter := (past.trans hf).length_lt
        match items f with
        | .error e => .error e
        | .ok (rest, ⟨g, hg⟩) => .ok (first :: rest, ⟨g, (past.trans hf).trans hg⟩)
termination_by 2 * c.rest.length + 1

/-- Reads the members of an object from the next one on, and the closing mark.
`found` holds those before. -/
def members (found : Entries) (c : Cursor) :
    Except ReadError (Entries × { d : Cursor // c.Past d }) :=
  match string .expectedName c with
  | .error e => .error e
  | .ok (name, ⟨d, hd⟩) =>
    let ⟨e, he⟩ := skipBlanks d
    match expectMark ':' .expectedColon e with
    | .error e => .error e
    | .ok ⟨f, hf⟩ =>
      have before := (hd.trans_upto he).trans hf
      have _shorter := before.length_lt
      match value f with
      | .error e => .error e
      | .ok (member, ⟨g, hg⟩) =>
        let ⟨h, hh⟩ := skipBlanks g
        have past := (before.trans hg).trans_upto hh
        let entries := found.put (.scalar (.text name)) member
        match mark? '\x7d' h with
        | some ⟨i, hi⟩ => .ok (entries, ⟨i, past.trans hi⟩)
        | none =>
          match expectMark ',' .expectedComma h with
          | .error e => .error e
          | .ok ⟨i, hi⟩ =>
            have _shorter' := (past.trans hi).length_lt
            match members entries i with
            | .error e => .error e
            | .ok (all, ⟨j, hj⟩) => .ok (all, ⟨j, (past.trans hi).trans hj⟩)
termination_by 2 * c.rest.length + 1
end

/-- Reads a text as one value. -/
def read (source : Text) : Except ReadError Value :=
  if source.startsWith "\ufeff" then .error (.malformed .byteOrderMark 0)
  else
    match value (skipBlanks (.ofSource source)).1 with
    | .error e => .error e
    | .ok (v, ⟨d, _⟩) =>
      let rest := (skipBlanks d).1
      if rest.rest.isEmpty then .ok v else refuse .trailingText rest

end StyleBinding.Json
