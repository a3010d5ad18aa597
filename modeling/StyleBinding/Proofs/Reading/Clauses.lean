import StyleBinding.Proofs.Import.Walk
import StyleBinding.Proofs.Reading.Declarations

/-!
# Sources that are one import declaration

A text that the grammar of import clauses accepts is also a source. It is read as
one declaration with the bindings that the grammar finds, unless the last name that
it is written to bind is `as`. The scanner comes to the path by its own walk over the clause,
hands the text up to there to the grammar, and leaves the rest, a semicolon at most,
to the reader of code. Nothing that the grammar accepts looks like a declaration of
types.
-/

namespace StyleBinding

open Cursor

/-! ## Blanks -/

/-- A text without the blanks it starts with. -/
def Text.afterBlanks (t : Text) : Text := t.drop (t.countWhile (·.isBlank))

theorem Text.afterBlanks_cons {x : CodePoint} (t : Text) (h : x.isBlank = true) :
    Text.afterBlanks (x :: t) = t.afterBlanks := by
  simp only [afterBlanks, countWhile, h, if_true, List.drop_succ_cons]

theorem Text.afterBlanks_of_not_isBlank {x : CodePoint} {t : Text} (h : x.isBlank = false) :
    Text.afterBlanks (x :: t) = x :: t := by
  simp only [afterBlanks, countWhile, h, Bool.false_eq_true, if_false, List.drop_zero]

/-- What is skipped are blanks alone, or a comment stands behind the first of them. -/
theorem Cursor.Skips.afterBlanks {c d : Cursor} (h : c.Skips d) :
    c.rest.afterBlanks = d.rest ∨ ∃ t, c.rest.afterBlanks = .scalar '/' :: t := by
  generalize size : c.rest.length = n
  induction n using Nat.strongRecOn generalizing c with
  | _ n ih =>
    rcases h.cases with rfl | ⟨x, t, hr, isBlank, rest⟩ | ⟨m, hm, _⟩
    · rcases h.self_cases with atEnd | ⟨x, t, hr, noBlank, _⟩
      · rw [atEnd]
        exact .inl rfl
      · rw [hr, Text.afterBlanks_of_not_isBlank noBlank]
        exact .inl rfl
    · have shorter := (past_of_cons hr).length_lt
      rw [hr, Text.afterBlanks_cons t isBlank]
      have := ih _ (by omega) rest rfl
      rwa [advance, hr] at this
    · obtain ⟨t, hr⟩ := commentLength?_head hm
      rw [hr]
      exact .inr ⟨t, Text.afterBlanks_of_not_isBlank rfl⟩

/-! ## Declarations of types -/

theorem eq_append_of_startsWith {t : Text} {word : String} (h : t.startsWith word = true) :
    t = Text.ofString word ++ t.drop (Text.ofString word).length := by
  obtain ⟨u, hu⟩ := List.isPrefixOf_iff_prefix.1 h
  rw [← hu, List.drop_left]

/-- What a declaration of types looks like behind the keyword. -/
theorem of_startsTypeImport {t : Text} (h : startsTypeImport t = true) :
    ∃ word w x u, (word = "type" ∨ word = "typeof") ∧
      Text.afterBlanks (t.drop 6) = Text.ofString word ++ w ∧ w.head?.any (·.isBlank) = true ∧
      Text.afterBlanks w = x :: u ∧ (x :: u).takeWhile (·.isWord) ≠ ("from" : Text) ∧
      (x.isWord || x.is '$' || x.is '{' || x.is '*') = true := by
  unfold startsTypeImport at h
  dsimp only at h
  split at h
  · cases h
  rename_i u hu
  split at hu
  · cases hu
  cases hu
  rw [Bool.and_eq_true] at h
  obtain ⟨isType, h⟩ := h
  have whole := eq_append_of_startsWith isType
  generalize hw : (if Text.startsWith _ "of" = true then _ else _) = w at h
  split at h
  · cases h
  rename_i v hv
  split at hv
  · cases hv
  rename_i someBlank
  cases hv
  rw [Bool.and_eq_true, bne_iff_ne] at h
  obtain ⟨notFrom, starts⟩ := h
  split at starts
  · cases starts
  rename_i x u isCons
  change Text.afterBlanks w = x :: u at isCons
  change (Text.afterBlanks w).takeWhile (·.isWord) ≠ ("from" : Text) at notFrom
  have isBlank : w.head?.any (·.isBlank) = true := by
    by_contra noBlank
    exact someBlank ((Text.countWhile_eq_zero_iff w).2 (eq_false_of_ne_true noBlank))
  split at hw
  · rename_i isOf
    have rest := eq_append_of_startsWith isOf
    refine ⟨"typeof", w, x, u, .inr rfl, ?_, isBlank, isCons, isCons ▸ notFrom, starts⟩
    exact whole.trans (by
      rw [← hw]
      exact congrArg (Text.ofString "type" ++ ·) rest)
  · exact ⟨"type", w, x, u, .inl rfl, hw ▸ whole, isBlank, isCons, isCons ▸ notFrom, starts⟩

namespace ImportClause

variable {g h k : Gap} {t path : Text} {w : Written}

theorem takeWhile_append_eq {p : CodePoint → Bool} {u v : Text} (inside : u.all p = true)
    (stops : v.head?.any p = false) : (u ++ v).takeWhile p = u := by
  rw [List.takeWhile_append_of_pos fun x member => List.all_eq_true.1 inside x member]
  cases v with
  | nil => exact List.append_nil u
  | cons x v =>
    rw [List.head?_cons, Option.any_some] at stops
    rw [List.takeWhile_cons, stops, if_neg Bool.false_ne_true, List.append_nil]

/-- Whether the rest of a clause looks like the binding of a type. -/
def StartsBinding (x : CodePoint) (u : Text) : Prop :=
  (x :: u).takeWhile (·.isWord) ≠ ("from" : Text) ∧
    (x.isWord || x.is '$' || x.is '{' || x.is '*') = true

/-- A comma follows a default name, or the keyword in front of a path. -/
theorem not_startsBinding (e : g.literal? "," = some h ∨
    (g.literal? "from" = some h ∧ h.cursor.rest.head?.any (·.isName) = false)) :
    ∃ x u, g.next.rest = x :: u ∧ startsToken x = true ∧ ¬ StartsBinding x u := by
  rcases e with isComma | ⟨isFrom, stops⟩
  · exact ⟨_, _, Gap.next_rest_of_literal? isComma, rfl, fun starts => nomatch starts.2⟩
  · refine ⟨_, _, Gap.next_rest_of_literal? isFrom, rfl, fun starts => starts.1 ?_⟩
    refine takeWhile_append_eq (u := Text.ofString "from") (by decide) ?_
    by_contra goesOn
    obtain ⟨y, v, hv, isWord⟩ := head?_any (Bool.not_eq_false _ ▸ goesOn)
    rw [hv, List.head?_cons, Option.any_some, CodePoint.isName, isWord] at stops
    cases stops

/-- Behind a default name no binding of a type starts. -/
theorem Binds.not_startsBinding {k l : Gap} {name : Text} (binds : Binds g w k)
    (isName : g.name? = some (name, h)) (isFrom : k.literal? "from" = some l)
    (stops : l.cursor.rest.head?.any (·.isName) = false) :
    ∃ x u, h.next.rest = x :: u ∧ startsToken x = true ∧ ¬ StartsBinding x u := by
  cases binds with
  | default isName' =>
    cases isName.symm.trans isName'
    exact ImportClause.not_startsBinding (.inr ⟨isFrom, stops⟩)
  | both isName' isComma =>
    cases isName.symm.trans isName'
    exact ImportClause.not_startsBinding (.inl isComma)
  | group noName =>
    rw [isName] at noName
    cases noName

/-- A declaration that the grammar reads imports more than types. -/
theorem Declares.not_startsTypeImport (declares : Declares g w path k)
    (isKeyword : g.literal? "import" = some h) (start : h.cursor.rest = t.drop 6) :
    startsTypeImport t = false := by
  by_contra ofTypes
  obtain ⟨word, v, x, u, isType, whole, isBlank, isCons, starts⟩ :=
    of_startsTypeImport (Bool.not_eq_false _ ▸ ofTypes)
  have cons : ∃ y, Text.ofString word = .scalar 't' :: y := by
    rcases isType with rfl | rfl
    · exact ⟨_, rfl⟩
    · exact ⟨_, rfl⟩
  obtain ⟨y, isCons'⟩ := cons
  have next (skips : h.cursor.Skips h.next) : h.next.rest = Text.ofString word ++ v := by
    rw [← whole, ← start]
    rcases skips.afterBlanks with same | ⟨z, slash⟩
    · exact same.symm
    · rw [start, whole, isCons'] at slash
      cases slash
  cases declares with
  | effects isKeyword' isString =>
    cases isKeyword.symm.trans isKeyword'
    have here := next (Gap.skips_of_string? isString)
    obtain ⟨n, isString, _⟩ := Gap.string?_eq_some_iff.1 isString
    obtain ⟨z, z', hr, isQuote⟩ := Document.isQuote_of_stringLength? isString
    rw [hr, isCons'] at here
    cases here
    cases isQuote
  | bindings isKeyword' _ binds isFrom isString =>
    cases isKeyword.symm.trans isKeyword'
    obtain ⟨z, z', hr, first⟩ := binds.head
    have here := next (Gap.skips_next hr (first.elim startsToken_of_isName
      startsToken_of_isClauseMark))
    have ends : v.head?.any (·.isName) = false := by
      obtain ⟨b, v', rfl, blank⟩ := head?_any isBlank
      by_contra isName
      rw [CodePoint.not_isBlank_of_isName (Bool.not_eq_false _ ▸ isName)] at blank
      cases blank
    have isWord : (Text.ofString word).all (·.isName) = true ∧
        (Text.ofString word).head?.any (!·.isDecimal) = true := by
      rcases isType with rfl | rfl <;> decide
    have length : Lexeme.nameLength h.next.rest = (Text.ofString word).length := by
      rw [here, nameLength_append isWord.1 isWord.2, (Text.countWhile_eq_zero_iff v).2 ends,
        Nat.add_zero]
    have isName := Gap.name?_eq_some_iff.2 ⟨by rw [length, isCons']; exact Nat.succ_pos _, rfl, rfl⟩
    obtain ⟨x', u', hr', token, others⟩ :=
      binds.not_startsBinding isName isFrom (Gap.stops_of_string? isString)
    have rest : (h.behind (Lexeme.nameLength h.next.rest)).cursor.rest = v := by
      rw [Gap.behind, advance, length, here, List.drop_left]
    rcases (Gap.skips_next hr' token).afterBlanks with same | ⟨z'', slash⟩
    · rw [rest, isCons, hr'] at same
      cases same
      exact others starts
    · rw [rest, isCons] at slash
      cases slash
      cases starts.2

/-! ## The keyword and the path -/

/-- What the grammar reads behind the keyword declares something. -/
theorem Declares.startsDeclaration (declares : Declares g w path k)
    (isKeyword : g.literal? "import" = some h) :
    Lead.startsDeclaration h.cursor = .ok true := by
  have first : ∃ x u, h.next.rest = x :: u ∧
      (x.isName || isClauseMark x || Lexeme.isQuote x) = true := by
    cases declares with
    | effects isKeyword' isString =>
      cases isKeyword.symm.trans isKeyword'
      obtain ⟨n, isString, _⟩ := Gap.string?_eq_some_iff.1 isString
      obtain ⟨x, u, hr, isQuote⟩ := Document.isQuote_of_stringLength? isString
      exact ⟨x, u, hr, by rw [isQuote, Bool.or_true]⟩
    | bindings isKeyword' _ binds =>
      cases isKeyword.symm.trans isKeyword'
      obtain ⟨x, u, hr, first⟩ := binds.head
      exact ⟨x, u, hr, by rw [Bool.or_eq_true, Bool.or_eq_true]; exact .inl first⟩
  obtain ⟨x, u, hr, first⟩ := first
  have token : startsToken x = true := by
    rw [Bool.or_eq_true, Bool.or_eq_true] at first
    rcases first with (isName | isMark) | isQuote
    · exact startsToken_of_isName isName
    · exact startsToken_of_isClauseMark isMark
    · exact startsToken_of_isQuote isQuote
  have noCall : (x.is '(' || x.is '.') = false := by
    by_contra call
    rw [Bool.not_eq_false, Bool.or_eq_true, CodePoint.is_iff, CodePoint.is_iff] at call
    rcases call with rfl | rfl
    · cases first
    · cases first
  obtain ⟨_, skips⟩ := Gap.skips_next hr token
  unfold Lead.startsDeclaration
  simp only [skips, hr, noCall, Bool.not_false]

theorem Written.source_of_meaning {clause : ImportClause} (means : w.meaning path = .ok clause) :
    Literal.decodeQuoted path = .ok clause.source := by
  unfold Written.meaning at means
  simp only [bind, Except.bind] at means
  split at means
  · cases means
  split at means
  · cases means
  rename_i decoded
  cases means
  exact decoded

/-- The walk over a clause ends at the literal that the grammar takes for the path. -/
theorem Declares.findsPath (declares : Declares g w path k)
    (isKeyword : g.literal? "import" = some h)
    (others : w.boundNames.getLast? ≠ some ("as" : Text)) :
    ∃ q n, h.cursor.FindsPath q ∧ h.cursor.Upto q ∧ Lexeme.stringLength? q.rest = some n ∧
      path = q.rest.take n ∧ k.cursor = q.advance n := by
  cases declares with
  | effects isKeyword' isString =>
    cases isKeyword.symm.trans isKeyword'
    have skips := Gap.skips_of_string? isString
    obtain ⟨n, isString', rfl, rfl⟩ := Gap.string?_eq_some_iff.1 isString
    obtain ⟨x, u, hr, isQuote⟩ := Document.isQuote_of_stringLength? isString'
    exact ⟨h.next, n, ⟨h.next, skips, .inl ⟨by rw [hr]; exact isQuote, rfl⟩⟩, h.next_upto,
      isString', rfl, rfl⟩
  | @bindings _ m l _ _ _ isKeyword' _ binds isFrom isString =>
    cases isKeyword.symm.trans isKeyword'
    obtain ⟨x, u, hr, first⟩ := binds.head
    have skips := Gap.skips_next hr (first.elim startsToken_of_isName startsToken_of_isClauseMark)
    have finds := (binds.finds (finds_of_from isFrom isString) others).behind_skipped skips
    have noQuote : h.next.rest.head?.any Lexeme.isQuote = false := by
      rw [hr]
      exact first.elim not_isQuote_of_isName Document.not_isQuote_of_isClauseMark
    have upto := (binds.upto.trans m.next_upto).trans (Gap.upto_of_literal? isFrom)
    obtain ⟨n, isString', rfl, rfl⟩ := Gap.string?_eq_some_iff.1 isString
    exact ⟨l.next, n, ⟨h.next, skips, .inr ⟨noQuote, finds⟩⟩, upto.trans l.next_upto,
      isString', rfl, rfl⟩

/-! ## Behind the path -/

/-- What is left behind a path: nothing, or one semicolon. -/
theorem finish_cases (h : finish g = .ok ()) :
    g.next.rest = [] ∨ ∃ k, g.literal? ";" = some k ∧ k.next.rest = [] := by
  unfold finish at h
  dsimp only at h
  split at h
  · rename_i atEnd
    rw [List.isEmpty_iff] at atEnd
    cases isMark : g.literal? ";" with
    | none =>
      rw [isMark] at atEnd
      exact .inl atEnd
    | some k =>
      rw [isMark] at atEnd
      exact .inr ⟨k, rfl, atEnd⟩
  · cases h

end ImportClause

namespace Cursor

theorem skipSeparators_countWhile {p : CodePoint → Bool} {c : Cursor} {x : CodePoint} {t : Text}
    (separates : ∀ y, p y = true → isSeparator y = true)
    (hr : c.rest.drop (Text.countWhile p c.rest) = x :: t) (noSeparator : isSeparator x = false)
    (noComment : commentLength? (x :: t) = none) :
    c.skipSeparators.1 = c.advance (Text.countWhile p c.rest) := by
  generalize whole : c.rest = u at hr ⊢
  induction u generalizing c with
  | nil => cases hr
  | cons y u ih =>
    rw [Text.countWhile] at hr ⊢
    split at hr
    · rename_i inside
      rw [if_pos inside, skipSeparators_of_separator whole (separates y inside),
        ih (c := c.advance 1) (by rw [advance, whole]; rfl) hr, advance_advance, Nat.add_comm]
    · rename_i outside
      cases hr
      rw [if_neg outside, advance_zero,
        skipSeparators_of_cons whole noSeparator (whole ▸ noComment)]

/-- The end of a declaration is where it is, or behind a semicolon that blanks stand in
front of. -/
theorem skipSemicolon_cases (c : Cursor) : c.skipSemicolon.1 = c ∨
    ∃ t, c.skipSeparators.1.rest = .scalar ';' :: t ∧
      c.skipSemicolon.1 = c.skipSeparators.1.advance 1 := by
  unfold skipSemicolon
  dsimp only
  split
  · exact .inl rfl
  rename_i x t hr
  split
  · rename_i isMark
    obtain rfl := CodePoint.is_iff.1 isMark
    have skips := skipSeparators_countWhile (by
      intro y blank
      simp only [Bool.or_eq_true, CodePoint.is_iff] at blank
      rcases blank with rfl | rfl <;> rfl) hr rfl rfl
    refine .inr ⟨t, ?_, ?_⟩
    · rw [skips]
      exact hr
    · rw [skips, advance_advance]
  · exact .inl rfl

end Cursor

namespace Document

open ImportClause

/-- A semicolon is read as the end of a statement. -/
theorem at_semicolon {topLevel : Bool} {prev : Previous} {c : Cursor} {t : Text}
    (hr : c.rest = .scalar ';' :: t) :
    ∃ past, Lead.At topLevel prev c (.token ⟨c.advance 1, past⟩ (.mark ";")) := by
  have isMark : Lexeme.punctuator? c.rest = some ";" := by
    rw [hr]
    rfl
  have lexed : Lead.Lexed topLevel prev c 1 (prev.punctuator ";") := by
    refine .punctuator hr (by rw [hr]; rfl) (by rw [hr]; rfl) rfl (fun _ => ?_) isMark
    rw [hr]
    rfl
  exact lexed.at_token

/-- Nothing is found behind a declaration whose clause ends there. -/
theorem reads_of_finish {g : Gap} (h : finish g = .ok ()) :
    ∃ d, Reads false (.code false [] (.mark ";")) g.cursor.skipSemicolon.1 {} d := by
  have atEnd {g : Gap} {prev : Previous} (isEnd : g.next.rest = []) :
      Reads false (.code false [] prev) g.cursor {} g.next := by
    refine .codeEnd (skips_skipSeparators g.cursor fun x t hr => ?_) isEnd
    change g.next.rest = x :: t at hr
    rw [isEnd] at hr
    cases hr
  rcases skipSemicolon_cases g.cursor with stays | ⟨t, hr, moves⟩
  · rw [stays]
    rcases finish_cases h with isEnd | ⟨k, isMark, isEnd⟩
    · exact ⟨_, atEnd isEnd⟩
    · have hr := Gap.next_rest_of_literal? isMark
      obtain ⟨past, lead⟩ : ∃ past, Lead.At true (.mark ";") g.next
          (.token ⟨g.next.advance 1, past⟩ (.mark ";")) := at_semicolon hr
      obtain ⟨_, rfl⟩ := Gap.literal?_eq_some_iff.1 isMark
      exact ⟨_, .codeToken (Gap.skips_next hr rfl) lead nofun (atEnd isEnd)⟩
  · rw [moves]
    rcases finish_cases h with isEnd | ⟨k, isMark, isEnd⟩
    · change g.next.rest = _ at hr
      rw [isEnd] at hr
      cases hr
    · obtain ⟨_, rfl⟩ := Gap.literal?_eq_some_iff.1 isMark
      exact ⟨_, atEnd isEnd⟩

theorem lacksAttributes_of_finish {g : Gap} (h : finish g = .ok ()) :
    g.cursor.LacksAttributes := by
  have noWord (noName : Lexeme.nameLength g.next.rest = 0) : ¬ g.next.AtAttributeWord := by
    rw [AtAttributeWord, noName, List.take_zero]
    rintro (same | same) <;> cases same
  rcases finish_cases h with isEnd | ⟨k, isMark, _⟩
  · refine .inl ⟨g.next, skips_skipSeparators g.cursor fun x t hr => ?_,
      noWord (by rw [isEnd]; rfl)⟩
    change g.next.rest = x :: t at hr
    rw [isEnd] at hr
    cases hr
  · have hr := Gap.next_rest_of_literal? isMark
    exact .inl ⟨g.next, Gap.skips_next hr rfl, noWord (by rw [hr]; rfl)⟩

/-! ## The whole source -/

section Source

variable {t path : Text} {w : Written} {k : Gap} {clause : ImportClause}

theorem literal?_import (keyword : t.startsWith "import" = true) :
    Gap.literal? ⟨.ofSource t, 0⟩ "import" = some ⟨(Cursor.ofSource t).advance 6, 0⟩ := by
  have hr := eq_append_of_startsWith keyword
  have next : Gap.next ⟨.ofSource t, 0⟩ = .ofSource t :=
    Gap.next_eq (g := ⟨.ofSource t, 0⟩) (x := .scalar 'i') hr rfl
  refine Gap.literal?_eq_some_iff.2 ⟨?_, ?_⟩
  · rw [next]
    exact keyword
  · rw [Gap.behind, next]
    rfl

/-- The text that is handed to the grammar means what the whole source means to it. -/
theorem readClause_of_declares (declares : Declares ⟨.ofSource t, 0⟩ w path k)
    (means : w.meaning path = .ok clause) (keyword : t.startsWith "import" = true)
    (raw : Text) (offset : Nat) :
    readClause (t.take k.cursor.offset) raw offset = .ok (clause, false) := by
  have isKeyword := literal?_import keyword
  have behind : 6 ≤ k.cursor.offset := by
    cases declares with
    | effects isKeyword' isString =>
      cases isKeyword.symm.trans isKeyword'
      exact ((Gap.next_upto _).trans (Gap.upto_of_string? isString)).offset_le
    | @bindings _ l m _ _ _ isKeyword' _ binds isFrom isString =>
      cases isKeyword.symm.trans isKeyword'
      exact ((binds.upto.trans (l.next_upto.trans (Gap.upto_of_literal? isFrom))).trans
        (m.next_upto.trans (Gap.upto_of_string? isString))).offset_le
  have noTypes : startsTypeImport (t.take k.cursor.offset) = false := by
    refine (declares.cut (Nat.le_refl _)).not_startsTypeImport
      (Gap.literal?_cut isKeyword (by decide) behind) ?_
    simp only [Gap.cut, inside, Span.upTo, advance, ofSource, Nat.zero_add, List.drop_take]
  rw [readClause, noTypes, if_neg Bool.false_ne_true, declares.parse_eq means]

/-- A source that the grammar of import clauses accepts is read as one declaration, with
the path and the bindings that the grammar finds, if it starts with the keyword, the keyword
is a word, and the last name it is written to bind is not `as`. Names in front of the last
one may be `as`. -/
theorem parse_of_clause (accepted : ImportClause.parse t = .ok clause)
    (keyword : t.startsWith "import" = true) (apart : (t.drop 6).head?.any (·.isName) = false)
    (others : ImportClause.lastName? t ≠ some ("as" : Text)) :
    ∃ i : ImportDeclaration, parse t = .ok { source := t, imports := [i], elements := [] } ∧
      i.span.start = 0 ∧ i.path.Within i.span ∧
      Lexeme.stringLength? (t.drop i.path.start) = some i.path.length ∧
      Literal.decodeQuoted (i.path.text t) = .ok clause.source ∧
      i.clause = clause ∧ i.ofTypes = false := by
  obtain ⟨w, path, k, declares, ends, means⟩ := declares_of_parse accepted
  have isKeyword := literal?_import keyword
  have whole : t = Text.ofString "import" ++ t.drop 6 := eq_append_of_startsWith keyword
  have length : Lexeme.nameLength t = 6 := by
    rw [whole, nameLength_append (by decide) (by decide),
      (Text.countWhile_eq_zero_iff _).2 apart]
    rfl
  have word : t.take (Lexeme.nameLength t) = ("import" : Text) := by
    rw [length, whole]
    rfl
  have starts : Lead.startsDeclaration ((Cursor.ofSource t).advance (Lexeme.nameLength t)) =
      .ok true := by
    rw [length]
    exact declares.startsDeclaration isKeyword
  obtain ⟨past, lead⟩ : ∃ past, Lead.At (!false && [].isEmpty) .start (Cursor.ofSource t)
      (.declaration ⟨(Cursor.ofSource t).advance (Lexeme.nameLength t), past⟩) :=
    Lead.at_declaration ⟨word, rfl, nofun⟩ starts
  rw [declares.lastName?_eq] at others
  obtain ⟨q, n, finds, upto, isString, isPath, behind⟩ := declares.findsPath isKeyword others
  have bounds := Lexeme.stringLength?_bounds isString
  rw [← length] at finds upto
  have reached : (Cursor.ofSource t).Upto (q.advance n) :=
    (past.upto.trans upto).trans (upto_advance bounds.2)
  have clauseRead := readClause_of_declares declares means keyword (q.rest.take n) 0
  rw [behind] at clauseRead
  have noAttributes : Reads false .importAttributes (q.advance n) {} (q.advance n) :=
    .attributesNone (behind ▸ lacksAttributes_of_finish ends)
  have declaration := Reads.declaration past upto isString
    (reached.trans (q.advance n).skipSemicolon.2) finds noAttributes clauseRead
  obtain ⟨d, rest⟩ := reads_of_finish ends
  rw [behind] at rest
  have start : codeStart t = Cursor.ofSource t := by
    rw [codeStart, whole]
    rfl
  have skips : (Cursor.ofSource t).Skips (Cursor.ofSource t) :=
    skips_of_startsToken (x := .scalar 'i') whole rfl
  have parsed {f : Found} (reads : Reads false (.code false [] .start) (Cursor.ofSource t) f d) :
      parse t = .ok { source := t, imports := f.imports, elements := f.elements } := by
    rw [← start] at reads
    exact reads.parse_eq
  have isRest : q.rest = t.drop q.offset := congrArg Cursor.rest (past.upto.trans upto).on
  have isSource : Literal.decodeQuoted path = .ok clause.source := Written.source_of_meaning means
  refine ⟨_, parsed (.codeDeclaration skips lead declaration rest), rfl,
    ⟨Nat.zero_le _, (q.advance n).skipSemicolon.2.offset_le⟩, ?_, ?_, rfl, rfl⟩
  · simp only [spanTo, Span.length, advance, Nat.add_sub_cancel_left]
    rw [← isRest]
    exact isString
  · simp only [spanTo, Span.text, Text.slice, advance, Nat.add_sub_cancel_left]
    rw [← isRest, ← isPath]
    exact isSource

/-- A source whose clause is made of words that may be keywords. -/
def contextualSource : Text := "import as, \x7btype as from, as as b, asc\x7d from './x';"

/-- What the grammar finds in it. -/
def contextualClause : ImportClause where
  source := "./x"
  defaultName := some (Text.ofString "as")
  named := [⟨"type", "from"⟩, ⟨"as", "b"⟩, ⟨"asc", "asc"⟩]

theorem parse_of_clause_contextual :
    ImportClause.parse contextualSource = .ok contextualClause ∧
      ImportClause.lastName? contextualSource ≠ some ("as" : Text) ∧
      ∃ i : ImportDeclaration, parse contextualSource =
        .ok { source := contextualSource, imports := [i], elements := [] } ∧
        i.clause = contextualClause := by
  have accepted : ImportClause.parse contextualSource = .ok contextualClause := by decide +kernel
  have others : ImportClause.lastName? contextualSource ≠ some ("as" : Text) := by
    decide +kernel
  obtain ⟨i, parsed, _, _, _, _, same, _⟩ :=
    parse_of_clause accepted (by decide +kernel) (by decide +kernel) others
  exact ⟨accepted, others, i, parsed, same⟩

/-- A source whose only name is `as`. -/
def misnamedSource : Text := "import as from './x'"

/-- The grammar accepts the name, and the scanner takes the keyword behind it for a new
name. -/
theorem misnamedSource_refused :
    ImportClause.parse misnamedSource =
        .ok { source := Text.ofString "./x", defaultName := some (Text.ofString "as") } ∧
      parse misnamedSource = .error (.at .unterminatedImport 0) := by
  have accepted : ImportClause.parse misnamedSource =
      .ok { source := Text.ofString "./x", defaultName := some (Text.ofString "as") } := by
    decide +kernel
  have refused : (match parse misnamedSource with
    | .error r => decide (r = .at .unterminatedImport 0)
    | .ok _ => false) = true := by decide +kernel
  refine ⟨accepted, ?_⟩
  split at refused
  · rename_i r failed
    rw [failed, of_decide_eq_true refused]
  · cases refused

end Source

end Document

end StyleBinding
