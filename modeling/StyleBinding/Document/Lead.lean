import StyleBinding.Source.Bracket
import StyleBinding.Source.Lexeme
import StyleBinding.Source.Trivia

/-!
# What a place in a script begins

A script is read token by token, and only as far as it takes to tell code from
comments, literals and elements. The one thing that has to be remembered is the
token before: it decides whether a slash divides or opens a regular expression,
and whether a less-than sign compares or opens an element.
-/

namespace StyleBinding

/-- The token before a place in a script. -/
inductive Previous where
  /-- Nothing yet in this stretch of code. -/
  | start
  /-- A literal, an element, or an operand with its postfix operator. -/
  | value
  /-- The closing parenthesis of a statement head. -/
  | head
  | name (word : Text)
  | mark (text : String)
deriving DecidableEq

namespace Previous

/-- The words after which an expression may start. -/
def expressionWords : List String :=
  ["return", "typeof", "instanceof", "in", "of", "new", "delete", "void", "throw", "case",
    "do", "else", "yield", "await", "export", "default", "extends"]

/-- The words whose parentheses are followed by a statement. -/
def headWords : List String := ["if", "while", "for", "with"]

/-- Whether an expression may start behind a token. -/
def allowsExpression : Previous → Bool
  | start => true
  | value => false
  | head => true
  | name word => expressionWords.any fun w => Text.ofString w == word
  | mark text => text != ")" && text != "]"

/-- Whether a parenthesis behind a token opens a statement head. -/
def opensHead : Previous → Bool
  | name word => headWords.any fun w => Text.ofString w == word
  | _ => false

/-- What a punctuator is to the token behind it. An increment or decrement
behind an operand leaves the operand a value. -/
def punctuator (prev : Previous) (text : String) : Previous :=
  if (text == "++" || text == "--") && !prev.allowsExpression then .value else .mark text

end Previous

/-- What a place in a script begins. An ordinary token comes with its length and
with what it is to the token behind it. -/
inductive Lead (c : Cursor) where
  | template
  | opener (b : Bracket)
  | closer (b : Bracket)
  | element
  | declaration (keyword : { k : Cursor // c.Past k })
  | token (stop : { d : Cursor // c.Past d }) (prev : Previous)

namespace Lead

/-- Whether an element goes on behind a less-than sign. -/
def startsElement : Text → Bool
  | [] => false
  | c :: _ => c.is '>' || c.isLetter || c.is '_' || c.is '$'

/-- Whether a keyword `import` that ends at a cursor declares something: a call
or a member access behind it makes it an expression. -/
def startsDeclaration (k : Cursor) : Except Refusal Bool :=
  match k.skipTrivia with
  | .error e => .error e
  | .ok ⟨d, _⟩ =>
    match d.rest with
    | [] => .ok false
    | c :: _ => .ok (!(c.is '(' || c.is '.'))

/-- A token whose length a lexical function gives, or a refusal. -/
def lexeme (c : Cursor) (length? : Text → Option Nat)
    (bounds : ∀ {t n}, length? t = some n → 0 < n ∧ n ≤ t.length) (refusal : Refusal) :
    Except Refusal (Lead c) :=
  match h : length? c.rest with
  | some n => .ok (.token ⟨c.advance n, Cursor.past_advance (bounds h).1 (bounds h).2⟩ .value)
  | none => .error refusal

/-- An identifier of a positive length, or the keyword of a declaration. -/
def word (topLevel : Bool) (prev : Previous) (c : Cursor) (stop : { d : Cursor // c.Past d })
    (text : Text) : Except Refusal (Lead c) :=
  if text = ("import" : Text) ∧ topLevel = true ∧ prev ≠ .mark "." then
    match startsDeclaration stop.1 with
    | .error e => .error e
    | .ok true => .ok (.declaration stop)
    | .ok false => .ok (.token stop (.name text))
  else .ok (.token stop (.name text))

/-- Whether a number starts at the head of a text. -/
def startsNumber : Text → Bool
  | [] => false
  | c :: rest => c.isDigit || (c.is '.' && rest.head?.any (·.isDigit))

/-- What a place begins that is no literal, bracket or element. -/
def plain (topLevel : Bool) (prev : Previous) (c : Cursor) {x : CodePoint} {t : Text}
    (hr : c.rest = x :: t) : Except Refusal (Lead c) :=
  if startsNumber c.rest then
    lexeme c Lexeme.numberLength? Lexeme.numberLength?_bounds (.strayDigit c.offset)
  else if hn : 0 < Lexeme.nameLength c.rest then
    word topLevel prev c ⟨_, Cursor.past_advance hn (Lexeme.nameLength_le _)⟩
      (c.rest.take (Lexeme.nameLength c.rest))
  else
    match hp : Lexeme.punctuator? c.rest with
    | some p =>
      have h := Lexeme.punctuator?_bounds hp
      .ok (.token ⟨_, Cursor.past_advance h.1 h.2⟩ (prev.punctuator p))
    | none => .ok (.token ⟨_, Cursor.past_of_cons hr⟩ .value)

/-- What a place that is not the end begins, and not with a blank or comment.
`topLevel` says that import declarations may stand there. -/
def read (topLevel : Bool) (prev : Previous) (c : Cursor) {x : CodePoint} {t : Text}
    (hr : c.rest = x :: t) : Except Refusal (Lead c) :=
  if Lexeme.isQuote x then
    lexeme c Lexeme.stringLength? Lexeme.stringLength?_bounds
      (.at .unterminatedString c.offset)
  else if x.is '\x60' then .ok .template
  else
    match Bracket.ofOpener? x, Bracket.ofCloser? x with
    | some b, _ => .ok (.opener b)
    | none, some b => .ok (.closer b)
    | none, none =>
      if x.is '<' && prev.allowsExpression && startsElement t then .ok .element
      else if prev.allowsExpression then
        match hx : Lexeme.regexLength? c.rest with
        | some _ =>
          have h := Lexeme.regexLength?_bounds hx
          .ok (.token ⟨_, Cursor.past_advance h.1 h.2⟩ .value)
        | none => plain topLevel prev c hr
      else plain topLevel prev c hr

end Lead

end StyleBinding
