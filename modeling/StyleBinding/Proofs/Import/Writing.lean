import StyleBinding.Proofs.Import.Walk
import StyleBinding.Proofs.Source.Gaps
import StyleBinding.Proofs.Source.Quotes

/-!
# Writing import declarations

A `Form` is what can be written between `import` and the path, with each name and
literal as it is spelt. `Spaced` puts the tokens of a declaration into a text: any
separators and comments may stand in front of a token and behind the last one, as
long as two words do not touch. Whatever is written so is read back as the clause
that was meant, also where a name is spelt like a keyword: the readers look for a
keyword only where no name may stand.
-/

namespace StyleBinding.ImportClause

open Cursor

/-! ## Tokens -/

/-- A name: code points of names, and no digit in front. -/
structure Name where
  text : Text
  isName : text.all (·.isName) = true
  starts : text.head?.any (!·.isDecimal) = true

/-- A literal with the text that it means. -/
structure Quoted where
  raw : Text
  meaning : Text
  isString : IsString raw
  decodes : Literal.decodeQuoted raw = .ok meaning

/-- The marks of a declaration. -/
inductive Mark where
  | star | opening | closing | comma | semicolon

/-- How a mark is written. -/
def Mark.spelling : Mark → String
  | star => "*"
  | opening => "\x7b"
  | closing => "\x7d"
  | comma => ","
  | semicolon => ";"

/-- A token of a declaration. Keywords are words like any other. -/
inductive Token where
  | word (name : Name)
  | literal (quoted : Quoted)
  | mark (mark : Mark)

namespace Token

/-- The text of a token. -/
def text : Token → Text
  | word name => name.text
  | literal quoted => quoted.raw
  | mark m => m.spelling

/-- Whether a token is a word. -/
def isWord : Token → Bool
  | word _ => true
  | _ => false

/-- The keyword in front of a declaration. -/
def importWord : Token := word ⟨"import", by decide, by decide⟩

/-- The keyword in front of a new name. -/
def asWord : Token := word ⟨"as", by decide, by decide⟩

/-- The keyword in front of a path. -/
def fromWord : Token := word ⟨"from", by decide, by decide⟩

end Token

/-- What the first code point of a token is like. -/
def Token.Begins : Token → CodePoint → Prop
  | word _, x => x.isName = true
  | literal _, x => Lexeme.isQuote x = true
  | mark m, x => Text.ofString m.spelling = [x]

theorem Token.head (token : Token) : ∃ x t, token.text = x :: t ∧ token.Begins x := by
  cases token with
  | word name =>
    obtain ⟨x, t, isCons, _⟩ := head?_any name.starts
    exact ⟨x, t, isCons, List.all_eq_true.1 name.isName x (isCons ▸ List.mem_cons_self)⟩
  | literal quoted => exact quoted.isString.head
  | mark m => cases m <;> exact ⟨_, _, rfl, rfl⟩

theorem Token.Begins.startsToken {token : Token} {x : CodePoint} (h : token.Begins x) :
    startsToken x = true := by
  cases token with
  | word => exact startsToken_of_isName h
  | literal => exact startsToken_of_isQuote h
  | mark m => cases m <;> cases h <;> rfl

/-- Only a word begins like a name. -/
theorem Token.Begins.isWord {token : Token} {x : CodePoint} (h : token.Begins x)
    (isName : x.isName = true) : token.isWord = true := by
  cases token with
  | word => rfl
  | literal =>
    cases (not_isQuote_of_isName isName).symm.trans h
  | mark m => cases m <;> cases h <;> cases isName

/-! ## Forms of declarations -/

/-- An exported name as it is spelt. -/
inductive Exported where
  | name (spelt : Name)
  | quoted (literal : Quoted)

/-- A specifier as it is spelt, with the local name where it has one. -/
structure Listed where
  exported : Exported
  renamed : Option Name

/-- A namespace, or specifiers in braces with a comma behind the last one or not. -/
inductive Grouped where
  | all (name : Name)
  | named (specifiers : List Listed) (comma : Bool)

/-- What may stand between the keyword `import` and the path. -/
inductive Form where
  | effects
  | default (name : Name)
  | group (group : Grouped)
  | both (name : Name) (group : Grouped)

/-! ### Their tokens -/

def Exported.token : Exported → Token
  | .name spelt => .word spelt
  | .quoted literal => .literal literal

def Listed.tokens (s : Listed) : List Token :=
  s.exported.token ::
    match s.renamed with
    | none => []
    | some name => [.asWord, .word name]

/-- The tokens of specifiers and of the brace behind them. -/
def Listed.closed (comma : Bool) : List Listed → List Token
  | [] => [.mark .closing]
  | [s] => s.tokens ++ if comma then [.mark .comma, .mark .closing] else [.mark .closing]
  | s :: t :: more => s.tokens ++ .mark .comma :: closed comma (t :: more)

def Grouped.tokens : Grouped → List Token
  | all name => [.mark .star, .asWord, .word name]
  | named specifiers comma => .mark .opening :: Listed.closed comma specifiers

/-- The tokens between the keyword `import` and the path. -/
def Form.tokens : Form → List Token
  | effects => []
  | default name => [.word name, .fromWord]
  | group g => g.tokens ++ [.fromWord]
  | both name g => .word name :: .mark .comma :: (g.tokens ++ [.fromWord])

/-- The tokens of a declaration, with a semicolon at its end or without. -/
def Form.declaration (form : Form) (path : Quoted) (semicolon : Bool) : List Token :=
  .importWord :: (form.tokens ++
    .literal path :: if semicolon then [.mark .semicolon] else [])

/-! ### What they mean -/

def Exported.meaning : Exported → Text
  | .name spelt => spelt.text
  | .quoted literal => literal.meaning

def Listed.specifier (s : Listed) : Specifier where
  imported := s.exported.meaning
  bound := (s.renamed.map (·.text)).getD s.exported.meaning

def Grouped.clause (source : Text) : Grouped → ImportClause
  | all name => { source, namespaceName := some name.text }
  | named specifiers _ => { source, named := specifiers.map (·.specifier) }

/-- The clause that a form means for a path. -/
def Form.clause (source : Text) : Form → ImportClause
  | effects => { source }
  | default name => { source, defaultName := some name.text }
  | group g => g.clause source
  | both name g => { g.clause source with defaultName := some name.text }

/-! ### What the readers find -/

def Exported.written : Exported → ExportName
  | .name spelt => .plain spelt.text
  | .quoted literal => .quoted literal.raw

def Listed.written (s : Listed) : ExportName × Option Text :=
  (s.exported.written, s.renamed.map (·.text))

def Grouped.written : Grouped → Written
  | all name => { namespaceName := some name.text }
  | named specifiers _ => { named := specifiers.map (·.written) }

def Form.written : Form → Written
  | effects => {}
  | default name => { defaultName := some name.text }
  | group g => g.written
  | both name g => { g.written with defaultName := some name.text }

theorem Exported.meaning_written (e : Exported) : e.written.meaning = .ok e.meaning := by
  cases e with
  | name => rfl
  | quoted literal => exact literal.decodes

theorem Listed.mapM_written (specifiers : List Listed) :
    (specifiers.map (·.written)).mapM (fun (name, bound) => Written.specifier name bound) =
      .ok (specifiers.map (·.specifier)) := by
  induction specifiers with
  | nil => rfl
  | cons s more ih =>
    rw [List.map_cons, List.mapM_cons, ih]
    simp only [written, Written.specifier, s.exported.meaning_written]
    rfl

theorem Form.meaning_written (form : Form) (path : Quoted) :
    form.written.meaning path.raw = .ok (form.clause path.meaning) := by
  have group (g : Grouped) (name : Option Text) :
      ({ g.written with defaultName := name } : Written).meaning path.raw =
        .ok { g.clause path.meaning with defaultName := name } := by
    cases g with
    | all =>
      simp only [Written.meaning, Grouped.written, List.mapM_nil, path.decodes]
      rfl
    | named specifiers comma =>
      simp only [Written.meaning, Grouped.written, Listed.mapM_written, path.decodes]
      rfl
  cases form with
  | effects | default =>
    simp only [Written.meaning, written, List.mapM_nil, path.decodes]
    rfl
  | group g =>
    have := group g none
    cases g <;> exact this
  | both name g => exact group g (some name.text)

/-! ## Texts -/

/-- A text of tokens with gaps in front of them and at the end, behind a word or not.
Two words do not touch. -/
inductive Spaced : Bool → List Token → Text → Prop
  | nil {afterWord : Bool} {gap : Text} : IsGap gap [] → Spaced afterWord [] gap
  | cons {afterWord : Bool} {token : Token} {tokens : List Token} {gap rest : Text} :
    IsGap gap (token.text ++ rest) → ((afterWord && token.isWord) = true → gap ≠ []) →
    Spaced token.isWord tokens rest →
    Spaced afterWord (token :: tokens) (gap ++ (token.text ++ rest))

/-- A word ends where it does: no code point of a name stands behind it. -/
theorem Spaced.stops {tokens : List Token} {t : Text} (h : Spaced true tokens t) :
    t.head?.any (·.isName) = false := by
  by_contra goesOn
  obtain ⟨x, u, isCons, isName⟩ := head?_any (Bool.not_eq_false _ ▸ goesOn)
  -- No gap begins with a code point of a name, so a second word would touch the first.
  have ends : EndsGap t := isCons ▸ endsGap_of_startsToken (startsToken_of_isName isName)
  cases h with
  | nil isGap =>
    rw [← List.append_nil t] at ends
    cases isGap.eq_nil_of_endsGap ends
    cases isCons
  | @cons _ token _ gap rest isGap apart _ =>
    cases isGap.eq_nil_of_endsGap ends
    obtain ⟨y, v, isCons', begins⟩ := token.head
    rw [List.nil_append, isCons', List.cons_append, List.cons.injEq] at isCons
    exact apart (begins.isWord (isCons.1 ▸ isName)) rfl

/-! ## Reading the tokens -/

/-- A place in front of tokens. -/
def Gap.Before (g : Gap) (tokens : List Token) : Prop :=
  ∃ afterWord, Spaced afterWord tokens g.cursor.rest

namespace Gap.Before

variable {g : Gap} {token : Token} {tokens : List Token}

/-- The next token is read from its first code point on, and the others stand behind it. -/
theorem step (h : g.Before (token :: tokens)) : ∃ rest, g.next.rest = token.text ++ rest ∧
    (g.behind token.text.length).cursor.rest = rest ∧ Spaced token.isWord tokens rest := by
  obtain ⟨_, spaced⟩ := h
  generalize hr : g.cursor.rest = t at spaced
  obtain _ | @⟨_, _, _, gap, rest, isGap, _, tail⟩ := spaced
  obtain ⟨x, t, isCons, begins⟩ := token.head
  have ends : EndsGap (token.text ++ rest) :=
    isCons ▸ endsGap_of_startsToken begins.startsToken
  have next : g.next = g.cursor.advance gap.length := isGap.skipSeparators_eq ends hr
  have nextRest : g.next.rest = token.text ++ rest := by
    rw [next, advance, hr, List.drop_left]
  refine ⟨rest, nextRest, ?_, tail⟩
  rw [behind, advance, nextRest, List.drop_left]

/-- Nothing stands behind the last token. -/
theorem atEnd (h : g.Before []) : g.next.rest = [] := by
  obtain ⟨_, spaced⟩ := h
  generalize hr : g.cursor.rest = t at spaced
  cases spaced with
  | nil isGap =>
    rw [← List.append_nil t] at hr
    rw [next, isGap.skipSeparators_eq endsGap_nil hr, advance, hr, List.drop_left]

/-- A word that is spelt like a keyword is read as one. -/
theorem literal? (h : g.Before (token :: tokens)) (word : String)
    (spelt : token.text = Text.ofString word) :
    ∃ k, g.literal? word = some k ∧ k.Before tokens := by
  obtain ⟨rest, nextRest, behind, tail⟩ := h.step
  have length : word.toList.length = token.text.length := by
    rw [spelt, Text.ofString, List.length_map]
  refine ⟨_, Gap.literal?_eq_some_iff.2 ⟨?_, rfl⟩, _, length ▸ behind ▸ tail⟩
  rw [nextRest, spelt]
  exact List.isPrefixOf_iff_prefix.2 (List.prefix_append ..)

theorem name? {name : Name} (h : g.Before (.word name :: tokens)) :
    ∃ k, g.name? = some (name.text, k) ∧ k.Before tokens := by
  obtain ⟨rest, nextRest, behind, tail⟩ := h.step
  -- The name is read to its end and no further, since the tail stops it.
  have length : Lexeme.nameLength g.next.rest = name.text.length := by
    rw [nextRest, Token.text, nameLength_append name.isName name.starts,
      (Text.countWhile_eq_zero_iff _).2 tail.stops, Nat.add_zero]
  refine ⟨_, Gap.name?_eq_some_iff.2 ⟨?_, ?_, rfl⟩, _, length ▸ behind ▸ tail⟩
  · obtain ⟨x, t, isCons, _⟩ := (Token.word name).head
    rw [length, show name.text = x :: t from isCons]
    exact Nat.succ_pos _
  · rw [length, nextRest, Token.text, List.take_left]

theorem string? {quoted : Quoted} (h : g.Before (.literal quoted :: tokens)) :
    ∃ k, g.string? = some (quoted.raw, k) ∧ k.Before tokens := by
  obtain ⟨rest, nextRest, behind, tail⟩ := h.step
  refine ⟨_, Gap.string?_eq_some_iff.2 ⟨_, ?_, ?_, rfl⟩, _, behind ▸ tail⟩
  · rw [nextRest]
    exact Lexeme.stringLength?_of_isString quoted.isString rest
  · rw [nextRest, Token.text, List.take_left]

/-! ### What does not come next -/

theorem head (h : g.Before (token :: tokens)) : ∃ x t, g.next.rest = x :: t ∧ token.Begins x := by
  obtain ⟨rest, nextRest, _⟩ := h.step
  obtain ⟨x, t, isCons, begins⟩ := token.head
  exact ⟨x, t ++ rest, by rw [nextRest, isCons, List.cons_append], begins⟩

theorem literal?_eq_none (h : g.Before (token :: tokens)) {word : String} {x : CodePoint}
    {t : Text} (isCons : Text.ofString word = x :: t) (other : ¬ token.Begins x) :
    g.literal? word = none := by
  obtain ⟨y, u, nextRest, begins⟩ := h.head
  rw [Gap.literal?_eq_none_iff, nextRest, Text.startsWith, isCons, List.isPrefixOf,
    Bool.and_eq_false_iff]
  exact .inl (beq_false_of_ne fun same => other (same ▸ begins))

theorem name?_eq_none (h : g.Before (token :: tokens)) (noWord : token.isWord = false) :
    g.name? = none := by
  obtain ⟨x, t, nextRest, begins⟩ := h.head
  rw [Gap.name?_eq_none_iff, nextRest]
  by_contra pos
  obtain ⟨y, u, isCons, isName⟩ := Lead.cons_of_nameLength (Nat.pos_of_ne_zero pos)
  cases isCons
  rw [begins.isWord isName] at noWord
  cases noWord

theorem string?_eq_none (h : g.Before (token :: tokens))
    (noQuote : ∀ x, token.Begins x → Lexeme.isQuote x = false) : g.string? = none := by
  obtain ⟨x, t, nextRest, begins⟩ := h.head
  rw [Gap.string?_eq_none_iff, nextRest]
  by_contra isString
  obtain ⟨n, isString⟩ := Option.ne_none_iff_exists'.1 isString
  obtain ⟨y, u, isCons, isQuote⟩ := Document.isQuote_of_stringLength? isString
  cases isCons
  rw [noQuote x begins] at isQuote
  cases isQuote

/-! ### Forms -/

theorem exportName? {e : Exported} (h : g.Before (e.token :: tokens)) :
    g.literal? "\x7d" = none ∧
      ∃ k, ImportClause.exportName? g = some (e.written, k) ∧ k.Before tokens := by
  cases e with
  | name spelt =>
    obtain ⟨k, isName, tail⟩ := h.name?
    exact ⟨h.literal?_eq_none rfl nofun, k,
      exportName?_eq_some_iff.2 (.inl ⟨_, isName, rfl⟩), tail⟩
  | quoted literal =>
    obtain ⟨k, isString, tail⟩ := h.string?
    exact ⟨h.literal?_eq_none rfl nofun, k,
      exportName?_eq_some_iff.2 (.inr ⟨h.name?_eq_none rfl, _, isString, rfl⟩), tail⟩

/-- A specifier is read up to the mark behind it. -/
theorem specifier {s : Listed} {m : Mark} (h : g.Before (s.tokens ++ .mark m :: tokens)) :
    g.literal? "\x7d" = none ∧ ∃ k l, ImportClause.exportName? g = some (s.written.1, k) ∧
      Renames k s.written.2 l ∧ l.Before (.mark m :: tokens) := by
  obtain ⟨e, _ | name⟩ := s
  · -- The keyword would be read from its letters alone, but a mark stands here.
    obtain ⟨noBrace, k, isExported, tail⟩ := exportName? h
    refine ⟨noBrace, k, k, isExported, .kept (tail.literal?_eq_none rfl ?_), tail⟩
    cases m <;> nofun
  · obtain ⟨noBrace, k, isExported, behind⟩ := exportName? h
    obtain ⟨l, isKeyword, behind⟩ := behind.literal? "as" rfl
    obtain ⟨n, isName, tail⟩ := behind.name?
    exact ⟨noBrace, k, n, isExported, .renamed isKeyword isName, tail⟩

theorem lists {specifiers : List Listed} {comma : Bool}
    (h : g.Before (Listed.closed comma specifiers ++ tokens)) :
    ∃ k, Lists g (specifiers.map (·.written)) k ∧ k.Before tokens := by
  fun_induction Listed.closed comma specifiers generalizing g with
  | case1 =>
    obtain ⟨k, isClose, tail⟩ := h.literal? "\x7d" rfl
    exact ⟨k, .close isClose, tail⟩
  | case2 s =>
    cases comma with
    | true =>
      rw [List.append_assoc] at h
      obtain ⟨noBrace, k, l, isExported, renames, behind⟩ := specifier h
      obtain ⟨m, isComma, behind⟩ := behind.literal? "," rfl
      obtain ⟨n, isClose, tail⟩ := behind.literal? "\x7d" rfl
      exact ⟨n, .more noBrace isExported renames isComma (.close isClose), tail⟩
    | false =>
      rw [List.append_assoc] at h
      obtain ⟨noBrace, k, l, isExported, renames, behind⟩ := specifier h
      obtain ⟨m, isClose, tail⟩ := behind.literal? "\x7d" rfl
      exact ⟨m, .last noBrace isExported renames (behind.literal?_eq_none rfl nofun) isClose, tail⟩
  | case3 s t more ih =>
    rw [List.append_assoc] at h
    obtain ⟨noBrace, k, l, isExported, renames, behind⟩ := specifier h
    obtain ⟨m, isComma, behind⟩ := behind.literal? "," rfl
    obtain ⟨n, lists, tail⟩ := ih behind
    exact ⟨n, .more noBrace isExported renames isComma lists, tail⟩

theorem groups {group : Grouped} (h : g.Before (group.tokens ++ tokens)) :
    g.name? = none ∧ g.string? = none ∧
      ∃ k, Groups g group.written k ∧ k.Before tokens := by
  cases group with
  | all name =>
    obtain ⟨k, isStar, behind⟩ := h.literal? "*" rfl
    obtain ⟨l, isKeyword, behind⟩ := behind.literal? "as" rfl
    obtain ⟨m, isName, tail⟩ := behind.name?
    exact ⟨h.name?_eq_none rfl, h.string?_eq_none (by rintro _ ⟨⟩; rfl), m,
      .all isStar isKeyword isName, tail⟩
  | named specifiers comma =>
    obtain ⟨k, isOpen, behind⟩ := h.literal? "\x7b" rfl
    obtain ⟨l, lists, tail⟩ := behind.lists
    exact ⟨h.name?_eq_none rfl, h.string?_eq_none (by rintro _ ⟨⟩; rfl), l,
      .named (h.literal?_eq_none rfl nofun) isOpen lists, tail⟩

/-- A form with bindings is read up to the keyword in front of the path. -/
theorem binds {form : Form} {path : Quoted}
    (h : g.Before (form.tokens ++ .literal path :: tokens)) (some : form ≠ .effects) :
    g.string? = none ∧
      ∃ k, Binds g form.written k ∧ k.Before (.fromWord :: .literal path :: tokens) := by
  cases form with
  | effects => exact absurd rfl some
  | default name =>
    obtain ⟨k, isName, tail⟩ := h.name?
    exact ⟨h.string?_eq_none fun _ => not_isQuote_of_isName, k,
      .default isName (tail.literal?_eq_none rfl nofun), tail⟩
  | group group =>
    rw [Form.tokens, List.append_assoc] at h
    obtain ⟨noName, noString, k, groups, tail⟩ := h.groups
    exact ⟨noString, k, .group noName groups, tail⟩
  | both name group =>
    rw [Form.tokens, List.cons_append, List.cons_append, List.append_assoc] at h
    obtain ⟨k, isName, behind⟩ := h.name?
    obtain ⟨l, isComma, behind⟩ := behind.literal? "," rfl
    obtain ⟨_, _, m, groups, tail⟩ := behind.groups
    exact ⟨h.string?_eq_none fun _ => not_isQuote_of_isName, m, .both isName isComma groups, tail⟩

theorem declares {form : Form} {path : Quoted}
    (h : g.Before (.importWord :: (form.tokens ++ .literal path :: tokens))) :
    ∃ k, Declares g form.written path.raw k ∧ k.Before tokens := by
  obtain ⟨k, isKeyword, behind⟩ := h.literal? "import" rfl
  by_cases none : form = .effects
  · subst none
    obtain ⟨l, isString, tail⟩ := behind.string?
    exact ⟨l, .effects isKeyword isString, tail⟩
  · obtain ⟨noString, l, binds, behind⟩ := behind.binds none
    obtain ⟨m, isFrom, behind⟩ := behind.literal? "from" rfl
    obtain ⟨n, isString, tail⟩ := behind.string?
    exact ⟨n, .bindings isKeyword noString binds isFrom isString, tail⟩

theorem finish {semicolon : Bool} (h : g.Before (if semicolon then [.mark .semicolon] else [])) :
    ImportClause.finish g = .ok () := by
  cases semicolon with
  | true =>
    obtain ⟨k, isSemicolon, behind⟩ := h.literal? ";" rfl
    rw [ImportClause.finish, isSemicolon]
    simp only [Option.getD_some, behind.atEnd, List.isEmpty_nil, if_true]
  | false =>
    have noSemicolon : g.literal? ";" = none := by
      rw [Gap.literal?_eq_none_iff, h.atEnd]
      rfl
    rw [ImportClause.finish, noSemicolon]
    simp only [Option.getD_none, h.atEnd, List.isEmpty_nil, if_true]

end Gap.Before

/-- Reading undoes writing: a declaration of any form, in any spelling, with any separators
and comments between its tokens, is read as the clause that the form means. -/
theorem parse_of_spaced (form : Form) (path : Quoted) (semicolon : Bool) {text : Text}
    (spaced : Spaced false (form.declaration path semicolon) text) :
    parse text = .ok (form.clause path.meaning) := by
  have before : Gap.Before ⟨.ofSource text, 0⟩ (form.declaration path semicolon) :=
    ⟨false, spaced⟩
  obtain ⟨g, declares, behind⟩ := before.declares
  rw [parse, declares.declaration_eq]
  simp only [bind, Except.bind, behind.finish, form.meaning_written]
  rfl

/-- Names that are spelt like keywords, and a literal with marks in it. -/
def keywordForm : Form :=
  .both ⟨"from", by decide, by decide⟩ (.named
    [⟨.quoted ⟨"\"\x7d,\"", "\x7d,", IsString.of_length (by decide +kernel),
        by decide +kernel⟩, some ⟨"as", by decide, by decide⟩⟩,
     ⟨.name ⟨"type", by decide, by decide⟩, none⟩] true)

def keywordPath : Quoted :=
  ⟨"'./\\x78'", "./x", IsString.of_length (by decide +kernel), by decide +kernel⟩

def keywordText : Text :=
  "import from/*,*/,\x7b\"\x7d,\"as\tas,type,\x7d// as\nfrom'./\\x78' ;"

theorem parse_of_spaced_keywords :
    Spaced false (keywordForm.declaration keywordPath true) keywordText ∧
      parse keywordText = .ok {
        source := ("./x" : Text)
        defaultName := some ("from" : Text)
        named := [⟨("\x7d," : Text), ("as" : Text)⟩, ⟨("type" : Text), ("type" : Text)⟩] } := by
  have comment {behind : Text} : IsGap "// as\n" behind :=
    .comment (@IsComment.line " as" _ (by decide) (.inr rfl))
      (.separator (x := .scalar '\n') rfl .nil)
  obtain ⟨text, spaced, same⟩ : ∃ t, Spaced false (keywordForm.declaration keywordPath true) t ∧
      t = keywordText := by
    refine ⟨_, .cons .nil nofun <| .cons (.separator (x := .scalar ' ') rfl .nil) nofun <|
      .cons (.comment (@IsComment.block "," _ (by decide)) .nil) nofun <|
      .cons .nil nofun <| .cons .nil nofun <| .cons .nil nofun <|
      .cons (.separator (x := .scalar '\t') rfl .nil) nofun <| .cons .nil nofun <|
      .cons .nil nofun <| .cons .nil nofun <| .cons .nil nofun <| .cons comment nofun <|
      .cons .nil nofun <| .cons (.separator (x := .scalar ' ') rfl .nil) nofun <| .nil .nil, ?_⟩
    decide +kernel
  have spaced := same ▸ spaced
  exact ⟨spaced, parse_of_spaced keywordForm keywordPath true spaced⟩

end StyleBinding.ImportClause
