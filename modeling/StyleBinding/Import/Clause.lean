import StyleBinding.Source.Lexeme
import StyleBinding.Source.Literal
import StyleBinding.Source.Trivia

/-!
# Import clauses

What one import declaration binds: the module path it names, a default name, a
namespace, and names exported by the module with the local names they get.

The grammar is read from left to right with one token of foresight. Which
tokens may come next decides how the text is cut, so `from`, `as` and `import`
are plain names wherever a name may stand, and a keyword is recognised by its
letters alone. A text that is no declaration is refused at its first token that
cannot follow the ones before; when the text ends too soon, at its last token.
-/

namespace StyleBinding

/-- A name exported by a module and the local name it is bound to. -/
structure Specifier where
  imported : Text
  bound : Text
deriving DecidableEq

/-- The bindings of one import declaration. -/
structure ImportClause where
  source : Text
  defaultName : Option Text := none
  namespaceName : Option Text := none
  named : List Specifier := []
deriving DecidableEq

/-- The names that a clause binds. -/
def ImportClause.boundNames (c : ImportClause) : List Text :=
  c.defaultName.toList ++ c.namespaceName.toList ++ c.named.map (·.bound)

/-- Why a text is no import declaration: a token that cannot stand where it
does, or an escape that names no code point. -/
inductive ClauseError where
  | unexpected (offset : Nat)
  | escape (e : EscapeBeyondLimit)
deriving DecidableEq

namespace ImportClause

/-! ## Tokens -/

/-- A place between the tokens of a declaration, and the offset of the token
before it. -/
structure Gap where
  cursor : Cursor
  lastToken : Nat

namespace Gap

/-- Where the next token starts. -/
def next (g : Gap) : Cursor := g.cursor.skipSeparators

/-- The gap behind a token of the given length. -/
def behind (g : Gap) (length : Nat) : Gap := ⟨g.next.advance length, g.next.offset⟩

/-- The refusal of whatever comes next. -/
def refuse (g : Gap) : ClauseError :=
  .unexpected (if g.next.rest.isEmpty then g.lastToken else g.next.offset)

/-- Reads a keyword or a punctuation mark. -/
def literal? (g : Gap) (word : String) : Option Gap :=
  if Text.startsWith g.next.rest word then some (g.behind word.toList.length) else none

/-- Reads a token whose length is given by a lexical function. -/
def token? (g : Gap) (length? : Text → Option Nat) : Option (Text × Gap) :=
  (length? g.next.rest).map fun n => (g.next.rest.take n, g.behind n)

/-- Reads an identifier. -/
def name? (g : Gap) : Option (Text × Gap) :=
  g.token? fun t => if Lexeme.nameLength t = 0 then none else some (Lexeme.nameLength t)

/-- Reads a string literal, quotes included. -/
def string? (g : Gap) : Option (Text × Gap) := g.token? Lexeme.stringLength?

/-- Reads a keyword or mark that has to come next. -/
def expect (g : Gap) (word : String) : Except ClauseError Gap :=
  match g.literal? word with
  | some h => .ok h
  | none => .error g.refuse

/-- Reads an identifier that has to come next. -/
def expectName (g : Gap) : Except ClauseError (Text × Gap) :=
  match g.name? with
  | some r => .ok r
  | none => .error g.refuse

/-- Reads a string literal that has to come next. -/
def expectString (g : Gap) : Except ClauseError (Text × Gap) :=
  match g.string? with
  | some r => .ok r
  | none => .error g.refuse

theorem literal?_lt {g h : Gap} {word : String} (pos : 0 < word.toList.length)
    (e : g.literal? word = some h) : h.cursor.rest.length < g.cursor.rest.length := by
  unfold literal? at e
  split at e
  · rename_i here
    cases e
    have skip := g.cursor.skipSeparators.2.length_le
    have step := (Cursor.past_advance pos (Cursor.le_length_of_startsWith here)).length_lt
    exact Nat.lt_of_lt_of_le step skip
  · cases e

theorem token?_lt {g h : Gap} {length? : Text → Option Nat} {t : Text}
    (bounds : ∀ {s n}, length? s = some n → 0 < n ∧ n ≤ s.length)
    (e : g.token? length? = some (t, h)) : h.cursor.rest.length < g.cursor.rest.length := by
  obtain ⟨n, hn, hh⟩ := Option.map_eq_some_iff.1 e
  cases hh
  have skip := g.cursor.skipSeparators.2.length_le
  have step := (Cursor.past_advance (bounds hn).1 (bounds hn).2).length_lt
  exact Nat.lt_of_lt_of_le step skip

theorem name?_lt {g h : Gap} {t : Text} (e : g.name? = some (t, h)) :
    h.cursor.rest.length < g.cursor.rest.length := by
  refine token?_lt ?_ e
  intro s n hn
  split at hn
  · cases hn
  · cases hn
    exact ⟨by omega, Lexeme.nameLength_le s⟩

theorem string?_lt {g h : Gap} {t : Text} (e : g.string? = some (t, h)) :
    h.cursor.rest.length < g.cursor.rest.length :=
  token?_lt Lexeme.stringLength?_bounds e

end Gap

/-! ## Specifiers -/

/-- An exported name as it is written. -/
inductive ExportName where
  | plain (name : Text)
  | quoted (literal : Text)

/-- The name that is meant. -/
def ExportName.meaning : ExportName → Except EscapeBeyondLimit Text
  | plain name => .ok name
  | quoted literal => Literal.decodeQuoted literal

/-- Reads an exported name. -/
def exportName? (g : Gap) : Option (ExportName × Gap) :=
  match g.name? with
  | some (name, h) => some (.plain name, h)
  | none => g.string?.map fun (literal, h) => (.quoted literal, h)

theorem exportName?_lt {g h : Gap} {n : ExportName} (e : exportName? g = some (n, h)) :
    h.cursor.rest.length < g.cursor.rest.length := by
  unfold exportName? at e
  split at e
  · rename_i hn
    cases e
    exact Gap.name?_lt hn
  · obtain ⟨⟨_, _⟩, hs, he⟩ := Option.map_eq_some_iff.1 e
    cases he
    exact Gap.string?_lt hs

/-- Reads the local name of a specifier that renames, or nothing. -/
def rename (g : Gap) : Except ClauseError { r : Option Text × Gap //
    r.2.cursor.rest.length ≤ g.cursor.rest.length } :=
  match ha : g.literal? "as" with
  | none => .ok ⟨(none, g), Nat.le_refl _⟩
  | some h =>
    match hn : h.name? with
    | none => .error h.refuse
    | some (name, k) =>
      .ok ⟨(some name, k), Nat.le_of_lt
        (Nat.lt_trans (Gap.name?_lt hn) (Gap.literal?_lt (by decide) ha))⟩

/-- Reads specifiers, and the brace behind them, from where one may start. -/
def specifiers (g : Gap) : Except ClauseError (List (ExportName × Option Text) × Gap) :=
  match g.literal? "\x7d" with
  | some h => .ok ([], h)
  | none =>
    match he : exportName? g with
    | none => .error g.refuse
    | some (name, h) =>
      match rename h with
      | .error e => .error e
      | .ok ⟨(bound, k), le⟩ =>
        match hc : k.literal? "," with
        | some m =>
          have _shorter : m.cursor.rest.length < g.cursor.rest.length :=
            Nat.lt_of_lt_of_le (Gap.literal?_lt (by decide) hc)
              (Nat.le_trans le (Nat.le_of_lt (exportName?_lt he)))
          match specifiers m with
          | .error e => .error e
          | .ok (more, l) => .ok ((name, bound) :: more, l)
        | none =>
          match k.literal? "\x7d" with
          | some l => .ok ([(name, bound)], l)
          | none => .error k.refuse
termination_by g.cursor.rest.length

/-! ## Declarations -/

/-- The bindings of a declaration as they are written. -/
structure Written where
  defaultName : Option Text := none
  namespaceName : Option Text := none
  named : List (ExportName × Option Text) := []

/-- Reads a namespace, or specifiers in braces. -/
def group (g : Gap) : Except ClauseError (Written × Gap) :=
  match g.literal? "*" with
  | some h => do
    let (name, k) ← (← h.expect "as").expectName
    return ({ namespaceName := some name }, k)
  | none => do
    let (named, k) ← specifiers (← g.expect "\x7b")
    return ({ named }, k)

/-- Reads what stands between the keywords `import` and `from`. -/
def bindings (g : Gap) : Except ClauseError (Written × Gap) :=
  match g.name? with
  | some (name, h) =>
    match h.literal? "," with
    | some k => do
      let (rest, l) ← group k
      return ({ rest with defaultName := some name }, l)
    | none => return ({ defaultName := some name }, h)
  | none => group g

/-- Reads a declaration up to its path. -/
def declaration (g : Gap) : Except ClauseError (Written × Text × Gap) := do
  let g ← g.expect "import"
  match g.string? with
  | some (path, h) => return ({}, path, h)
  | none =>
    let (written, h) ← bindings g
    let (path, k) ← (← h.expect "from").expectString
    return (written, path, k)

/-- Makes sure that nothing but one semicolon is left. -/
def finish (g : Gap) : Except ClauseError Unit :=
  let h := (g.literal? ";").getD g
  if h.next.rest.isEmpty then .ok () else .error h.refuse

/-- The bindings that a written specifier makes. -/
def Written.specifier (name : ExportName) (bound : Option Text) :
    Except EscapeBeyondLimit Specifier := do
  let imported ← name.meaning
  return { imported, bound := bound.getD imported }

/-- The clause that a declaration means. -/
def Written.meaning (w : Written) (path : Text) : Except EscapeBeyondLimit ImportClause := do
  let named ← w.named.mapM fun (name, bound) => Written.specifier name bound
  return {
    source := ← Literal.decodeQuoted path
    defaultName := w.defaultName
    namespaceName := w.namespaceName
    named }

/-- Reads the text of one import declaration. -/
def parse (text : Text) : Except ClauseError ImportClause := do
  let (written, path, g) ← declaration ⟨.ofSource text, 0⟩
  finish g
  (written.meaning path).mapError .escape

end ImportClause

end StyleBinding
