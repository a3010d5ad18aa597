import StyleBinding.Text.Hexadecimal
import StyleBinding.Text.Name
import StyleBinding.Source.Cursor

/-!
# Lexemes

The tokens that scripts are made of, apart from brackets and template
literals. Each lexical function looks at the head of a text and gives the
number of code points that the token takes, zero or nothing when there is none;
the section on bounds shows that a token never goes beyond the text.
-/

namespace StyleBinding.Lexeme

/-! ## Names and tags -/

/-- The length of the identifier at the head of a text. -/
def nameLength : Text → Nat
  | [] => 0
  | c :: rest => if c.isDecimal then 0 else Text.countWhile (·.isName) (c :: rest)

/-- The length of one part of a tag name. -/
def tagPartLength : Text → Nat
  | [] => 0
  | c :: rest => if c.isTagStart then Text.countWhile (·.isTag) rest + 1 else 0

/-- How far the name of an element goes on once a code point of it is read. A
colon or a full stop belongs to it when another part follows. -/
def tagNameTail : Text → Nat
  | [] => 0
  | c :: rest =>
    if c.isTag then tagNameTail rest + 1
    else if c.is ':' || c.is '.' then
      match rest with
      | [] => 0
      | d :: more => if d.isTagStart then tagNameTail more + 2 else 0
    else 0

/-- The length of the element name at the head of a text. -/
def tagNameLength : Text → Nat
  | [] => 0
  | c :: rest => if c.isTagStart then tagNameTail rest + 1 else 0

/-- The length of the attribute name at the head of a text: one part, or two
with a colon between them. -/
def attributeNameLength (t : Text) : Nat :=
  let first := tagPartLength t
  if first = 0 then 0
  else
    match t.drop first with
    | [] => first
    | c :: rest =>
      if c.is ':' && tagPartLength rest != 0 then first + 1 + tagPartLength rest else first

/-! ## String literals -/

/-- How far a string goes on, its closing quote included. A line feed ends it
early unless a backslash comes before. -/
def stringTail? (quote : Char) : Text → Option Nat
  | [] => none
  | c :: rest =>
    if c.is quote then some 1
    else if c.is '\n' then none
    else if c.is '\\' then
      match rest with
      | [] => none
      | _ :: more => (stringTail? quote more).map (· + 2)
    else (stringTail? quote rest).map (· + 1)

/-- Whether a code point opens a string literal. -/
def isQuote (c : CodePoint) : Bool := c.is '\'' || c.is '"'

/-- The length of the string literal at the head of a text. -/
def stringLength? : Text → Option Nat
  | .scalar '\'' :: rest => (stringTail? '\'' rest).map (· + 1)
  | .scalar '"' :: rest => (stringTail? '"' rest).map (· + 1)
  | _ => none

/-! ## Regular expression literals -/

/-- How far a regular expression goes on, its closing slash included. Slashes
inside brackets do not close it, and no line feed may stand in it. -/
def regexTail? (inBrackets : Bool) : Text → Option Nat
  | [] => none
  | c :: rest =>
    if c.is '\n' then none
    else if c.is '\\' then
      match rest with
      | [] => none
      | d :: more => if d.is '\n' then none else (regexTail? inBrackets more).map (· + 2)
    else if inBrackets then (regexTail? (!c.is ']') rest).map (· + 1)
    else if c.is '/' then some 1
    else (regexTail? (c.is '[') rest).map (· + 1)

/-- The length of the regular expression literal at the head of a text, its
flags included. -/
def regexLength? : Text → Option Nat
  | .scalar '/' :: c :: rest =>
    if c.is '/' || c.is '*' then none
    else
      (regexTail? false (c :: rest)).map fun n =>
        let flags := Text.countWhile (·.isIn Char.isAlpha) ((c :: rest).drop n)
        n + 1 + flags
  | _ => none

/-! ## Numbers -/

/-- Whether a code point can stand among the digits of a number. -/
def isSpacedDecimal (c : CodePoint) : Bool := c.isDecimal || c.is '_'

/-- Whether a code point can stand among the digits of a prefixed number. -/
def isSpacedHex (c : CodePoint) : Bool := c.isHex || isSpacedDecimal c

/-- The length of the digits after a base prefix such as `0x`, with the prefix. -/
def prefixedLength? : Text → Option Nat
  | .scalar '0' :: base :: rest =>
    let digits := Text.countWhile isSpacedHex rest
    if base.isIn (fun x => "xXoObB".toList.contains x) && digits != 0 then some (digits + 2)
    else none
  | _ => none

/-- The length of an integral part and the fraction after it, or of a fraction
alone. -/
def decimalLength? : Text → Option Nat
  | [] => none
  | c :: rest =>
    if c.isDecimal then
      let whole := Text.countWhile isSpacedDecimal rest + 1
      match (c :: rest).drop whole with
      | .scalar '.' :: more => some (whole + 1 + Text.countWhile isSpacedDecimal more)
      | _ => some whole
    else if c.is '.' then
      match rest with
      | [] => none
      | d :: more => if d.isDecimal then some (Text.countWhile isSpacedDecimal more + 2) else none
    else none

/-- The length of an exponent, zero when there is none. -/
def exponentLength : Text → Nat
  | [] => 0
  | c :: rest =>
    if c.is 'e' || c.is 'E' then
      let sign :=
        match rest with
        | s :: _ => if s.is '+' || s.is '-' then 1 else 0
        | [] => 0
      match rest.drop sign with
      | [] => 0
      | d :: more =>
        if d.isDecimal then sign + 2 + Text.countWhile isSpacedDecimal more else 0
    else 0

/-- The length of a number without the suffix of big integers. -/
def plainNumberLength? (t : Text) : Option Nat :=
  match prefixedLength? t with
  | some n => some n
  | none => (decimalLength? t).map fun n => n + exponentLength (t.drop n)

/-- The length of the number at the head of a text. -/
def numberLength? (t : Text) : Option Nat :=
  (plainNumberLength? t).map fun n => if Text.startsWith (t.drop n) "n" then n + 1 else n

/-! ## Punctuators -/

/-- The punctuators, each before every one that begins it. -/
def punctuators : List String :=
  [">>>=", "...", "===", "!==", "**=", "<<=", ">>=", ">>>", "&&=", "||=", "??=", "=>", "==",
    "!=", "<=", ">=", "&&", "||", "??", "?.", "++", "--", "+=", "-=", "*=", "/=", "%=", "&=",
    "|=", "^=", "**", "<<", ">>", ";", ",", "<", ">", "+", "-", "*", "/", "%", "&", "|", "^",
    "!", "~", "?", ":", "=", ".", "@", "#"]

/-- The punctuator at the head of a text. -/
def punctuator? (t : Text) : Option String := punctuators.find? fun p => t.startsWith p

/-! ## Bounds -/

theorem nameLength_le (t : Text) : nameLength t ≤ t.length := by
  cases t with
  | nil => simp [nameLength]
  | cons c rest =>
    simp only [nameLength]
    split
    · simp
    · exact Text.countWhile_le ..

theorem tagPartLength_le (t : Text) : tagPartLength t ≤ t.length := by
  cases t with
  | nil => simp [tagPartLength]
  | cons c rest =>
    simp only [tagPartLength, List.length_cons]
    have := Text.countWhile_le (·.isTag) rest
    split <;> omega

theorem tagNameTail_le (t : Text) : tagNameTail t ≤ t.length := by
  fun_induction tagNameTail t <;> simp_all

theorem tagNameLength_le (t : Text) : tagNameLength t ≤ t.length := by
  cases t with
  | nil => simp [tagNameLength]
  | cons c rest =>
    simp only [tagNameLength, List.length_cons]
    have := tagNameTail_le rest
    split <;> omega

theorem attributeNameLength_le (t : Text) : attributeNameLength t ≤ t.length := by
  have first := tagPartLength_le t
  simp only [attributeNameLength]
  split
  · omega
  · split
    · exact first
    · rename_i c rest h
      have whole := congrArg List.length h
      have second := tagPartLength_le rest
      simp only [List.length_drop, List.length_cons] at whole
      split <;> omega

theorem stringTail?_le {quote : Char} {t : Text} {n : Nat} (h : stringTail? quote t = some n) :
    n ≤ t.length := by
  fun_induction stringTail? quote t generalizing n with
  | case1 => cases h
  | case2 => cases h; simp
  | case3 => cases h
  | case4 => cases h
  | case5 =>
    rename_i ih
    obtain ⟨m, hm, rfl⟩ := Option.map_eq_some_iff.1 h
    have := ih hm
    simp only [List.length_cons]
    omega
  | case6 =>
    rename_i ih
    obtain ⟨m, hm, rfl⟩ := Option.map_eq_some_iff.1 h
    have := ih hm
    simp only [List.length_cons]
    omega

theorem stringLength?_bounds {t : Text} {n : Nat} (h : stringLength? t = some n) :
    0 < n ∧ n ≤ t.length := by
  unfold stringLength? at h
  split at h
  all_goals first
    | (obtain ⟨m, hm, rfl⟩ := Option.map_eq_some_iff.1 h
       have := stringTail?_le hm
       simp only [List.length_cons]
       omega)
    | cases h

theorem regexTail?_le {inBrackets : Bool} {t : Text} {n : Nat}
    (h : regexTail? inBrackets t = some n) : n ≤ t.length := by
  fun_induction regexTail? inBrackets t generalizing n with
  | case1 => cases h
  | case2 => cases h
  | case3 => cases h
  | case4 => cases h
  | case5 =>
    rename_i ih
    obtain ⟨m, hm, rfl⟩ := Option.map_eq_some_iff.1 h
    have := ih hm
    simp only [List.length_cons]
    omega
  | case6 =>
    rename_i ih
    obtain ⟨m, hm, rfl⟩ := Option.map_eq_some_iff.1 h
    have := ih hm
    simp only [List.length_cons]
    omega
  | case7 => cases h; simp
  | case8 =>
    rename_i ih
    obtain ⟨m, hm, rfl⟩ := Option.map_eq_some_iff.1 h
    have := ih hm
    simp only [List.length_cons]
    omega

theorem regexLength?_bounds {t : Text} {n : Nat} (h : regexLength? t = some n) :
    0 < n ∧ n ≤ t.length := by
  unfold regexLength? at h
  split at h
  · rename_i c rest
    split at h
    · cases h
    · obtain ⟨m, hm, rfl⟩ := Option.map_eq_some_iff.1 h
      have body := regexTail?_le hm
      have flags := Text.countWhile_le (·.isIn Char.isAlpha) ((c :: rest).drop m)
      simp only [List.length_drop, List.length_cons] at flags body ⊢
      omega
  · cases h

theorem prefixedLength?_bounds {t : Text} {n : Nat} (h : prefixedLength? t = some n) :
    0 < n ∧ n ≤ t.length := by
  unfold prefixedLength? at h
  split at h
  · rename_i base rest
    have := Text.countWhile_le isSpacedHex rest
    simp only at h
    split at h
    · cases h
      simp only [List.length_cons]
      omega
    · cases h
  · cases h

theorem decimalLength?_bounds {t : Text} {n : Nat} (h : decimalLength? t = some n) :
    0 < n ∧ n ≤ t.length := by
  unfold decimalLength? at h
  split at h
  · cases h
  · rename_i c rest
    split at h
    · have whole := Text.countWhile_le isSpacedDecimal rest
      simp only at h
      split at h
      · rename_i more hd
        have whole' := congrArg List.length hd
        have := Text.countWhile_le isSpacedDecimal more
        cases h
        simp only [List.length_drop, List.length_cons] at whole' ⊢
        omega
      · cases h
        simp only [List.length_cons]
        omega
    · split at h
      · split at h
        · cases h
        · rename_i d more
          have := Text.countWhile_le isSpacedDecimal more
          split at h
          · cases h
            simp only [List.length_cons]
            omega
          · cases h
      · cases h

theorem exponentLength_le (t : Text) : exponentLength t ≤ t.length := by
  unfold exponentLength
  split
  · simp
  · rename_i c rest
    split
    · simp only
      generalize hs : (match rest with
        | s :: _ => if (s.is '+' || s.is '-') = true then 1 else 0
        | [] => 0) = sign
      split
      · simp
      · rename_i d more hd
        have whole := congrArg List.length hd
        have := Text.countWhile_le isSpacedDecimal more
        simp only [List.length_drop, List.length_cons] at whole ⊢
        split <;> omega
    · simp

theorem plainNumberLength?_bounds {t : Text} {n : Nat} (h : plainNumberLength? t = some n) :
    0 < n ∧ n ≤ t.length := by
  unfold plainNumberLength? at h
  split at h
  · rename_i m hm
    cases h
    exact prefixedLength?_bounds hm
  · obtain ⟨m, hm, rfl⟩ := Option.map_eq_some_iff.1 h
    have whole := decimalLength?_bounds hm
    have := exponentLength_le (t.drop m)
    simp only [List.length_drop] at this
    omega

theorem numberLength?_bounds {t : Text} {n : Nat} (h : numberLength? t = some n) :
    0 < n ∧ n ≤ t.length := by
  unfold numberLength? at h
  obtain ⟨m, hm, rfl⟩ := Option.map_eq_some_iff.1 h
  have whole := plainNumberLength?_bounds hm
  split
  · rename_i hs
    have := Cursor.le_length_of_startsWith (c := ⟨0, t.drop m⟩) hs
    simp at this
    omega
  · exact whole

theorem punctuator?_bounds {t : Text} {p : String} (h : punctuator? t = some p) :
    0 < p.toList.length ∧ p.toList.length ≤ t.length := by
  unfold punctuator? at h
  have member := List.mem_of_find?_eq_some h
  have here := List.find?_some h
  refine ⟨?_, Cursor.le_length_of_startsWith (c := ⟨0, t⟩) here⟩
  have all : ∀ q ∈ punctuators, 0 < q.toList.length := by decide
  exact all p member

end StyleBinding.Lexeme
