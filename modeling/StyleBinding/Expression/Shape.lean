import StyleBinding.Source.Bracket
import StyleBinding.Source.Lexeme
import StyleBinding.Source.Literal
import StyleBinding.Source.Trivia

/-!
# Shapes of expressions

Just enough of the structure of an expression to tell a lone literal, an array
or an object from everything else. An expression is a sequence of terms: string
literals, template literals, bracketed groups, and atoms, which are the runs of
everything that is no blank, quote, bracket or comma. Commas stand only inside
brackets. Brackets must match, and the literals that have a meaning must be
decodable; a text that breaks these rules has no shape.
-/

namespace StyleBinding

/-- What the terms of an expression are, when there is one, or that there are
several. An array tells what is between its brackets and how many of the slots
between its commas are not empty. -/
inductive ShapeKind where
  | string (text : Text)
  | template (text : Option Text)
  | array (inner : Span) (elements : Nat)
  | object
  | group
  | atom
  | other
deriving DecidableEq

/-- A shape and the span, in the text it was read from, that it covers. -/
structure Shape where
  kind : ShapeKind
  span : Span
deriving DecidableEq

namespace Shape

/-- The text that an expression stands for whatever its surroundings. -/
def staticText? (s : Shape) : Option Text :=
  match s.kind with
  | .string text => some text
  | .template text => text
  | _ => none

/-- What is between the brackets of an array. -/
def arrayInner? (s : Shape) : Option Span :=
  match s.kind with
  | .array inner _ => some inner
  | _ => none

/-! ## Tokens -/

/-- A token of an expression: a term of its own, a bracket or a comma. -/
inductive Token where
  | term (shape : Shape)
  | opener (b : Bracket) (span : Span)
  | closer (b : Bracket) (span : Span)
  | comma

/-- How far a template literal goes on, its closing mark included. -/
def templateTail? : Text → Option Nat
  | [] => none
  | c :: rest =>
    if c.is '\x60' then some 1
    else if c.is '\\' then
      match rest with
      | [] => none
      | _ :: more => (templateTail? more).map (· + 2)
    else (templateTail? rest).map (· + 1)

theorem templateTail?_le {t : Text} {n : Nat} (h : templateTail? t = some n) : n ≤ t.length := by
  fun_induction templateTail? t generalizing n with
  | case1 => cases h
  | case2 => cases h; simp
  | case3 => cases h
  | case4 =>
    rename_i ih
    obtain ⟨m, hm, rfl⟩ := Option.map_eq_some_iff.1 h
    have := ih hm
    simp only [List.length_cons]
    omega
  | case5 =>
    rename_i ih
    obtain ⟨m, hm, rfl⟩ := Option.map_eq_some_iff.1 h
    have := ih hm
    simp only [List.length_cons]
    omega

/-- Whether a code point can stand in an atom. -/
def isAtomic (c : CodePoint) : Bool :=
  !(c.isBlank || Lexeme.isQuote c || c.is '\x60' || c.is ',' || (Bracket.ofOpener? c).isSome ||
    (Bracket.ofCloser? c).isSome)

/-- What a string literal stands for, as a kind of shape. -/
def stringKind? (raw : Text) : Option ShapeKind :=
  match Literal.decodeQuoted raw with
  | .ok text => some (.string text)
  | .error _ => none

/-- What a template literal stands for. One with a substitution stands for
nothing fixed. -/
def templateKind? (raw : Text) : Option ShapeKind :=
  if (Text.offsetOf? "$\x7b" raw).isSome then some (.template none)
  else
    match Literal.decodeQuoted raw with
    | .ok text => some (.template (some text))
    | .error _ => none

/-- The length and kind of the term at the head of a text that is no bracket. -/
def term? (x : CodePoint) (t : Text) : Option (Nat × ShapeKind) :=
  if Lexeme.isQuote x then do
    let n ← Lexeme.stringLength? (x :: t)
    return (n, ← stringKind? ((x :: t).take n))
  else if x.is '\x60' then do
    let n ← templateTail? t
    return (n + 1, ← templateKind? ((x :: t).take (n + 1)))
  else if isAtomic x then some (Text.countWhile isAtomic t + 1, .atom)
  else none

theorem term?_bounds {x : CodePoint} {t : Text} {n : Nat} {k : ShapeKind}
    (h : term? x t = some (n, k)) : 0 < n ∧ n ≤ (x :: t).length := by
  unfold term? at h
  split at h
  · simp only [Option.bind_eq_bind, Option.bind_eq_some_iff, Option.pure_def, Option.some.injEq,
      Prod.mk.injEq] at h
    obtain ⟨m, hm, _, _, rfl, _⟩ := h
    exact Lexeme.stringLength?_bounds hm
  · split at h
    · simp only [Option.bind_eq_bind, Option.bind_eq_some_iff, Option.pure_def,
        Option.some.injEq, Prod.mk.injEq] at h
      obtain ⟨m, hm, _, _, rfl, _⟩ := h
      have := templateTail?_le hm
      simp only [List.length_cons]
      omega
    · split at h
      · have := Text.countWhile_le isAtomic t
        cases h
        simp only [List.length_cons]
        omega
      · cases h

/-- The tokens of a text, if it can be cut into tokens. -/
def tokens? (c : Cursor) : Option (List Token) :=
  match hd : c.skipSeparators with
  | ⟨d, upto⟩ =>
    match hr : d.rest with
    | [] => some []
    | x :: t =>
      have next := Cursor.past_of_cons hr
      have _shorter := (upto.trans_past next).length_lt
      let mark := d.spanTo _ next.upto
      match Bracket.ofOpener? x, Bracket.ofCloser? x with
      | some b, _ => (tokens? (d.advance 1)).map (.opener b mark :: ·)
      | none, some b => (tokens? (d.advance 1)).map (.closer b mark :: ·)
      | none, none =>
        if x.is ',' then (tokens? (d.advance 1)).map (.comma :: ·)
        else
          match hk : term? x t with
          | none => none
          | some (n, kind) =>
            have bounds := term?_bounds hk
            have past : d.Past (d.advance n) :=
              Cursor.past_advance bounds.1 (by rw [hr]; exact bounds.2)
            have _shorter' := (upto.trans_past past).length_lt
            (tokens? (d.advance n)).map (.term ⟨kind, d.spanTo _ past.upto⟩ :: ·)
termination_by c.rest.length

/-! ## Terms -/

/-- What stands between the brackets of a group: terms and commas. -/
inductive Item where
  | term (shape : Shape)
  | comma

/-- The number of slots between commas that hold a term. `pending` says that the
slot being read holds one. -/
def countSlots (pending : Bool) : List Item → Nat
  | [] => if pending then 1 else 0
  | .comma :: rest => (if pending then 1 else 0) + countSlots false rest
  | .term _ :: rest => countSlots true rest

/-- A group whose closing bracket is still to come, with what was read of it,
the last item first. -/
structure Frame where
  bracket : Bracket
  mark : Span
  items : List Item

/-- The shape of a group, from its opening mark, its items and its closing mark. -/
def ofGroup? (b : Bracket) (opening closing : Span) (items : List Item) : Option Shape :=
  if h : opening.stop ≤ closing.start then
    let span : Span := ⟨opening.start, closing.stop, by
      have := opening.le
      have := closing.le
      omega⟩
    match b with
    | .square => some ⟨.array ⟨opening.stop, closing.start, h⟩ (countSlots false items), span⟩
    | .curly => some ⟨.object, span⟩
    | .round => some ⟨.group, span⟩
  else none

/-- Groups tokens into the terms of the outermost level. `outer` holds the groups
that are open and `items` what was read at the present level, last item first. -/
def group? (outer : List Frame) (items : List Item) : List Token → Option (List Item)
  | [] => if outer.isEmpty then some items.reverse else none
  | .term shape :: rest => group? outer (.term shape :: items) rest
  | .comma :: rest => if outer.isEmpty then none else group? outer (.comma :: items) rest
  | .opener b mark :: rest => group? (⟨b, mark, items⟩ :: outer) [] rest
  | .closer b mark :: rest =>
    match outer with
    | [] => none
    | f :: frames =>
      if f.bracket = b then
        match ofGroup? b f.mark mark items.reverse with
        | some shape => group? frames (.term shape :: f.items) rest
        | none => none
      else none

/-- The shape of a sequence of terms. -/
def ofItems? : List Item → Option Shape
  | [.term shape] => some shape
  | .term first :: rest =>
    match rest.getLast? with
    | some (.term last) => some ⟨.other, first.span.extendTo last.span.stop⟩
    | _ => none
  | _ => none

/-- The shape of an expression. -/
def parse (text : Text) : Option Shape := do
  let items ← group? [] [] (← tokens? (.ofSource text))
  ofItems? items

end Shape

end StyleBinding
