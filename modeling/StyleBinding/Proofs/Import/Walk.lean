import StyleBinding.Proofs.Import.Ending
import StyleBinding.Proofs.Reading.Completeness
import StyleBinding.Proofs.Reading.Tokens

/-!
# The walk over an import clause

A script finds the path of a declaration by walking over the clause without
reading it: it knows braces, literals and words, and takes the first word `from`
for the keyword that stands outside of braces, behind something, and not behind
the word `as`. Where the grammar reads a clause, the walk ends at the same
literal, unless the last name that the clause is written to bind is `as`: that name
is then taken for the keyword that a new name stands behind.

The grammar may cut a word in two: in `* asx` it reads the keyword `as` and the
name `x`, where the walk sees one word. So the walk may have another last word than
the clause has a last name, but then it is not `as` either.
-/

namespace StyleBinding

open Cursor

/-! ## Where tokens start -/

namespace Cursor

theorem startsToken_of_isName {x : CodePoint} (h : x.isName = true) : startsToken x = true := by
  have noSlash : x.is '/' = false := by
    rw [Bool.eq_false_iff]
    intro same
    rw [CodePoint.is_iff.1 same] at h
    cases h
  simp only [startsToken, CodePoint.not_isBlank_of_isName h, noSlash, Bool.or_self, Bool.not_false]

theorem not_isQuote_of_isName {x : CodePoint} (h : x.isName = true) :
    Lexeme.isQuote x = false := by
  by_contra quote
  simp only [Lexeme.isQuote, Bool.not_eq_false, Bool.or_eq_true, CodePoint.is_iff] at quote
  rcases quote with rfl | rfl <;> cases h

theorem startsToken_of_isQuote {x : CodePoint} (h : Lexeme.isQuote x = true) :
    startsToken x = true := by
  simp only [Lexeme.isQuote, Bool.or_eq_true, CodePoint.is_iff] at h
  rcases h with rfl | rfl <;> rfl

theorem startsToken_of_isClauseMark {x : CodePoint} (h : isClauseMark x = true) :
    startsToken x = true := by
  simp only [isClauseMark, Bool.or_eq_true, CodePoint.is_iff] at h
  rcases h with ((rfl | rfl) | rfl) | rfl <;> rfl

theorem Skips.unique {c d e : Cursor} (h : c.Skips d) (k : c.Skips e) : d = e := by
  obtain ⟨_, h⟩ := h
  obtain ⟨_, k⟩ := k
  rw [h] at k
  cases k
  rfl

/-- Blanks and comments in front of a clause do not change what the walk finds. -/
theorem FindsLiteral.behind_skipped {depth : Int} {seen : Bool} {last : Text} {c p q : Cursor}
    (h : FindsLiteral depth seen last c q) (skips : c.Skips p) :
    FindsLiteral depth seen last p q := by
  cases h with
  | literal skips' isString rest =>
    cases skips.unique skips'
    exact .literal skips.again isString rest
  | mark skips' hr isMark rest =>
    cases skips.unique skips'
    exact .mark skips.again hr isMark rest
  | word skips' eq pos goesOn rest =>
    cases skips.unique skips'
    exact .word skips.again eq pos goesOn rest
  | keyword skips' eq pos ends skips'' isQuote =>
    cases skips.unique skips'
    exact .keyword skips.again eq pos ends skips'' isQuote

end Cursor

namespace ImportClause

variable {g h k : Gap} {q : Cursor} {depth : Int} {seen : Bool} {last t : Text}

namespace Gap

/-- A script skips the same in front of a token of the clause. -/
theorem skips_next {x : CodePoint} {u : Text} (hr : g.next.rest = x :: u)
    (starts : startsToken x = true) : g.cursor.Skips g.next := by
  refine skips_skipSeparators g.cursor fun y v hr' => ?_
  obtain ⟨rfl, rfl⟩ := List.cons.inj (hr.symm.trans hr')
  exact starts

theorem skips_of_name? (e : g.name? = some (t, h)) : g.cursor.Skips g.next := by
  obtain ⟨x, u, hr, isName⟩ := Lead.cons_of_nameLength (name?_eq_some_iff.1 e).1
  exact skips_next hr (startsToken_of_isName isName)

theorem skips_of_string? (e : g.string? = some (t, h)) : g.cursor.Skips g.next := by
  obtain ⟨n, isString, _⟩ := string?_eq_some_iff.1 e
  obtain ⟨x, u, hr, isQuote⟩ := Document.isQuote_of_stringLength? isString
  exact skips_next hr (startsToken_of_isQuote isQuote)

theorem next_eq {x : CodePoint} {u : Text} (hr : g.cursor.rest = x :: u)
    (starts : startsToken x = true) : g.next = g.cursor := by
  refine skipSeparators_of_cons hr ?_ (hr ▸ commentLength?_of_startsToken starts)
  by_contra separates
  have blank := CodePoint.isBlank_of_isSeparator (Bool.not_eq_false _ ▸ separates)
  rw [startsToken, blank] at starts
  cases starts

theorem next_rest_of_literal? {word : String} (e : g.literal? word = some h) :
    g.next.rest = Text.ofString word ++ h.cursor.rest := by
  obtain ⟨here, rfl⟩ := literal?_eq_some_iff.1 e
  obtain ⟨u, hu⟩ := List.isPrefixOf_iff_prefix.1 here
  have length : word.toList.length = (Text.ofString word).length := by
    rw [Text.ofString, List.length_map]
  rw [behind, advance, ← hu, length, List.drop_left]

end Gap

/-! ## Words -/

theorem nameLength_append {u v : Text} (isWord : u.all (·.isName) = true)
    (first : u.head?.any (!·.isDecimal) = true) :
    Lexeme.nameLength (u ++ v) = u.length + Text.countWhile (·.isName) v := by
  have run : Text.countWhile (·.isName) (u ++ v) = u.length + Text.countWhile (·.isName) v := by
    clear first
    induction u with
    | nil => rw [List.nil_append, List.length_nil, Nat.zero_add]
    | cons x u ih =>
      rw [List.all_cons, Bool.and_eq_true] at isWord
      rw [List.cons_append, Text.countWhile, if_pos isWord.1, ih isWord.2, List.length_cons]
      omega
  obtain _ | ⟨x, u⟩ := u
  · cases first
  · rw [List.head?_cons, Option.any_some, Bool.not_eq_true'] at first
    rw [Lexeme.nameLength_eq_ite, List.cons_append, List.head?_cons, Option.any_some, first,
      if_neg Bool.false_ne_true, ← List.cons_append, run]

theorem nameLength_of_pos {u : Text} (pos : 0 < Lexeme.nameLength u) :
    Lexeme.nameLength u = Text.countWhile (·.isName) u := by
  rw [Lexeme.nameLength_eq_ite] at pos ⊢
  split at pos
  · cases pos
  · rename_i noDigit
    rw [if_neg noDigit]

theorem head?_any {u : Text} {p : CodePoint → Bool} (h : u.head?.any p = true) :
    ∃ x v, u = x :: v ∧ p x = true := by
  cases u with
  | nil => cases h
  | cons x v => exact ⟨x, v, rfl, h⟩

/-- A keyword in front of a code point that is none of a name is a word. -/
theorem Gap.name?_of_literal? {word : String} (e : g.literal? word = some h)
    (isWord : (Text.ofString word).all (·.isName) = true)
    (first : (Text.ofString word).head?.any (!·.isDecimal) = true)
    (stops : h.cursor.rest.head?.any (·.isName) = false) :
    g.name? = some (Text.ofString word, h) := by
  have hr := Gap.next_rest_of_literal? e
  have length : word.toList.length = (Text.ofString word).length := by
    rw [Text.ofString, List.length_map]
  have whole : Lexeme.nameLength g.next.rest = (Text.ofString word).length := by
    rw [hr, nameLength_append isWord first, (Text.countWhile_eq_zero_iff _).2 stops,
      Nat.add_zero]
  have pos : 0 < (Text.ofString word).length := by
    cases hw : Text.ofString word with
    | nil =>
      rw [hw] at first
      cases first
    | cons => exact Nat.succ_pos _
  obtain ⟨_, rfl⟩ := Gap.literal?_eq_some_iff.1 e
  refine Gap.name?_eq_some_iff.2 ⟨whole ▸ pos, ?_, by rw [whole, length]⟩
  rw [whole]
  conv_rhs => rw [hr]
  rw [List.take_left]

/-- A literal does not stand behind a word that goes on. -/
theorem Gap.stops_of_string? (e : g.string? = some (t, h)) :
    g.cursor.rest.head?.any (·.isName) = false := by
  obtain ⟨n, isString, _⟩ := string?_eq_some_iff.1 e
  obtain ⟨x, u, hr, isQuote⟩ := Document.isQuote_of_stringLength? isString
  by_contra goesOn
  obtain ⟨y, v, hv, isName⟩ := head?_any (Bool.not_eq_false _ ▸ goesOn)
  rw [next_eq hv (startsToken_of_isName isName), hv] at hr
  cases hr
  rw [not_isQuote_of_isName isName] at isQuote
  cases isQuote

/-! ## Steps of the walk -/

theorem finds_of_mark {x : Char} {word : String} (e : g.literal? word = some h)
    (isWord : Text.ofString word = [.scalar x]) (isMark : isClauseMark (.scalar x) = true)
    (rest : FindsLiteral (depthBehind depth (.scalar x)) true last h.cursor q) :
    FindsLiteral depth seen last g.cursor q := by
  have hr := Gap.next_rest_of_literal? e
  rw [isWord, List.singleton_append] at hr
  obtain ⟨_, rfl⟩ := Gap.literal?_eq_some_iff.1 e
  have one : word.toList.length = 1 := by
    have := congrArg List.length isWord
    rwa [Text.ofString, List.length_map] at this
  rw [Gap.behind, one] at rest
  exact .mark (Gap.skips_next hr (startsToken_of_isClauseMark isMark)) hr isMark rest

theorem finds_of_string (e : g.string? = some (t, h))
    (rest : FindsLiteral depth true last h.cursor q) :
    FindsLiteral depth seen last g.cursor q := by
  obtain ⟨n, isString, rfl, rfl⟩ := Gap.string?_eq_some_iff.1 e
  exact .literal (Gap.skips_of_string? e) isString rest

theorem finds_of_name (e : g.name? = some (t, h)) (goesOn : ¬ EndsClause depth seen last t)
    (rest : FindsLiteral depth true t h.cursor q) : FindsLiteral depth seen last g.cursor q := by
  have skips := Gap.skips_of_name? e
  obtain ⟨pos, rfl, rfl⟩ := Gap.name?_eq_some_iff.1 e
  exact .word skips rfl pos goesOn rest

/-- The keyword `as` and a name behind it, which the walk may see as one word. -/
theorem finds_of_rename (isKeyword : g.literal? "as" = some h) (isName : h.name? = some (t, k))
    (rest : ∀ last, (last = ("as" : Text) → t = ("as" : Text)) →
      FindsLiteral depth true last k.cursor q) :
    FindsLiteral depth seen last g.cursor q := by
  cases stops : h.cursor.rest.head?.any (·.isName) with
  | false =>
    have isWord := Gap.name?_of_literal? isKeyword (by decide) (by decide) stops
    refine finds_of_name isWord (fun ends => absurd ends.1 (by decide)) ?_
    exact finds_of_name isName (fun ends => absurd rfl ends.2.2.2) (rest t id)
  | true =>
    have glued : h.next = h.cursor := by
      obtain ⟨x, v, hv, isName⟩ := head?_any stops
      exact Gap.next_eq hv (startsToken_of_isName isName)
    obtain ⟨pos, rfl, rfl⟩ := Gap.name?_eq_some_iff.1 isName
    rw [Gap.behind, glued] at rest
    rw [glued] at pos
    have hr := Gap.next_rest_of_literal? isKeyword
    have skips := Gap.skips_next (x := .scalar 'a') (u := .scalar 's' :: h.cursor.rest) hr rfl
    have whole : 2 + Lexeme.nameLength h.cursor.rest = Lexeme.nameLength g.next.rest := by
      rw [hr, nameLength_append (by decide) (by decide), nameLength_of_pos pos]
      rfl
    have word : g.next.rest.take (2 + Lexeme.nameLength h.cursor.rest) =
        ("as" : Text) ++ h.cursor.rest.take (Lexeme.nameLength h.cursor.rest) := by
      rw [hr]
      change List.take (("as" : Text).length + _) (("as" : Text) ++ _) = _
      exact List.take_length_add_append _
    have behind : h.cursor = g.next.advance 2 := by
      rw [(Gap.literal?_eq_some_iff.1 isKeyword).2]
      rfl
    refine .word skips whole (by omega) ?_ ?_
    · rw [word]
      exact fun ends => by cases ends.1
    · rw [word, ← advance_advance, ← behind]
      refine rest _ fun same => ?_
      have := congrArg List.length same
      rw [List.length_append, List.length_take, Nat.min_eq_left (Lexeme.nameLength_le _)] at this
      exact absurd this (by
        change ¬ (2 + _ = 2)
        omega)

/-! ## Clauses -/

/-- The name that is written, unless it is a literal. -/
def ExportName.written : ExportName → Option Text
  | plain name => some name
  | quoted _ => none

/-- The names that a namespace or specifiers are written to bind. -/
def Written.groupNames (w : Written) : List Text :=
  w.namespaceName.toList ++ w.named.filterMap fun (name, bound) => bound <|> name.written

/-- The names that are written to be bound. -/
def Written.boundNames (w : Written) : List Text := w.defaultName.toList ++ w.groupNames

/-- The walk goes on from a gap at some depth to a place, behind any word but `as`. -/
def Finds (depth : Int) (g : Gap) (q : Cursor) : Prop :=
  ∀ last, last ≠ ("as" : Text) → FindsLiteral depth true last g.cursor q

/-- Names that do not end with one name do not end with it behind another word either,
unless that word is the name. -/
theorem getLastD_ne {names : List Text} {u v word : Text} (h : names.getLastD u ≠ word)
    (same : v = word → u = word) : names.getLastD v ≠ word := by
  cases names with
  | nil => exact fun isWord => h (same isWord)
  | cons first rest =>
    rw [List.getLastD_cons] at h ⊢
    exact h

theorem getLastD_filterMap_cons {α : Type} (f : α → Option Text) (a : α) (l : List α)
    (last : Text) :
    ((a :: l).filterMap f).getLastD last = (l.filterMap f).getLastD ((f a).getD last) := by
  rw [List.filterMap_cons]
  cases f a with
  | none => rfl
  | some t => exact List.getLastD_cons ..

/-- In braces the walk goes on behind a specifier. The last word that it has seen is then
`as` only if that is the name bound last. -/
theorem finds_of_specifier {name : ExportName} {bound : Option Text}
    (isName : exportName? g = some (name, h)) (renames : Renames h bound k)
    (rest : ∀ word, (word = ("as" : Text) →
      (bound <|> name.written).getD last = ("as" : Text)) → FindsLiteral 1 true word k.cursor q) :
    FindsLiteral 1 true last g.cursor q := by
  have inside {word : Text} : ¬ EndsClause 1 true last word :=
    fun ends => absurd ends.2.1 (by decide)
  rcases exportName?_eq_some_iff.1 isName with ⟨t, isPlain, rfl⟩ | ⟨_, raw, isString, rfl⟩
  · refine finds_of_name isPlain inside ?_
    cases renames with
    | kept => exact rest t id
    | renamed isKeyword isName' => exact finds_of_rename isKeyword isName' rest
  · refine finds_of_string isString ?_
    cases renames with
    | kept => exact rest last id
    | renamed isKeyword isName' => exact finds_of_rename isKeyword isName' rest

theorem Lists.finds {named : List (ExportName × Option Text)} (lists : Lists g named h)
    (rest : Finds 0 h q)
    (others : (named.filterMap fun (name, bound) => bound <|> name.written).getLastD last ≠
      ("as" : Text)) :
    FindsLiteral 1 true last g.cursor q := by
  induction lists generalizing last with
  | close isClose => exact finds_of_mark isClose rfl rfl (rest last others)
  | last _ isName renames _ isClose =>
    rw [getLastD_filterMap_cons] at others
    refine finds_of_specifier isName renames fun word same => ?_
    exact finds_of_mark isClose rfl rfl (rest word (getLastD_ne others same))
  | more _ isName renames isComma _ ih =>
    rw [getLastD_filterMap_cons] at others
    refine finds_of_specifier isName renames fun word same => ?_
    exact finds_of_mark isComma rfl rfl (ih rest (getLastD_ne others same))

theorem Groups.finds {w : Written} (groups : Groups g w h) (rest : Finds 0 h q)
    (others : w.groupNames.getLastD last ≠ ("as" : Text)) :
    FindsLiteral 0 seen last g.cursor q := by
  cases groups with
  | all isStar isKeyword isName =>
    refine finds_of_mark isStar rfl rfl (finds_of_rename isKeyword isName fun word same => ?_)
    exact rest word fun isAs => others (same isAs)
  | named _ isOpen lists => exact finds_of_mark isOpen rfl rfl (lists.finds rest others)

/-- The walk over the bindings of a declaration goes on behind them. -/
theorem Binds.finds {w : Written} (binds : Binds g w h) (rest : Finds 0 h q)
    (others : w.boundNames.getLast? ≠ some ("as" : Text)) :
    FindsLiteral 0 false [] g.cursor q := by
  have first {word : Text} : ¬ EndsClause 0 false [] word := fun ends =>
    Bool.false_ne_true ends.2.2.1
  cases binds with
  | @default _ name isName =>
    exact finds_of_name isName first (rest name fun same => others (congrArg some same))
  | @both _ _ _ name w isName isComma groups =>
    refine finds_of_name isName first (finds_of_mark isComma rfl rfl
      (groups.finds rest fun same => others ?_))
    change (name :: w.groupNames).getLast? = _
    rw [List.getLast?_cons, ← List.getLastD_eq_getLast?, same]
  | group _ groups =>
    refine groups.finds rest fun same => others ?_
    rw [List.getLastD_eq_getLast?] at same
    rw [Written.boundNames, List.getLast?_append]
    cases isLast : w.groupNames.getLast? with
    | none =>
      rw [isLast] at same
      cases same
    | some name =>
      rw [isLast] at same
      exact congrArg some same

/-- Behind the bindings the walk meets the keyword and ends at the literal. -/
theorem finds_of_from {path : Text} (isFrom : g.literal? "from" = some h)
    (isString : h.string? = some (path, k)) : Finds 0 g h.next := by
  intro last notAs
  obtain ⟨n, isString', _⟩ := Gap.string?_eq_some_iff.1 isString
  obtain ⟨x, u, hr, isQuote⟩ := Document.isQuote_of_stringLength? isString'
  have isWord := Gap.name?_of_literal? isFrom (by decide) (by decide)
    (Gap.stops_of_string? isString)
  have skips := Gap.skips_of_name? isWord
  obtain ⟨pos, word, behind⟩ := Gap.name?_eq_some_iff.1 isWord
  refine .keyword skips rfl pos ⟨word.symm, rfl, rfl, notAs⟩ ?_ (by rw [hr]; exact isQuote)
  have skips' := Gap.skips_of_string? isString
  rw [behind] at skips' ⊢
  exact skips'

/-! ## What a clause starts with -/

/-- The bindings of a declaration start with a name or a mark. -/
theorem Binds.head {w : Written} (binds : Binds g w h) :
    ∃ x u, g.next.rest = x :: u ∧ (x.isName = true ∨ isClauseMark x = true) := by
  have ofName {t : Text} {k : Gap} (isName : g.name? = some (t, k)) :
      ∃ x u, g.next.rest = x :: u ∧ (x.isName = true ∨ isClauseMark x = true) := by
    obtain ⟨x, u, hr, isName⟩ := Lead.cons_of_nameLength (Gap.name?_eq_some_iff.1 isName).1
    exact ⟨x, u, hr, .inl isName⟩
  cases binds with
  | default isName => exact ofName isName
  | both isName => exact ofName isName
  | group _ groups =>
    cases groups with
    | all isStar => exact ⟨_, _, Gap.next_rest_of_literal? isStar, .inr rfl⟩
    | named _ isOpen => exact ⟨_, _, Gap.next_rest_of_literal? isOpen, .inr rfl⟩

theorem bound_of_specifier {name : ExportName} {bound : Option Text} {s : Specifier}
    (h : Written.specifier name bound = .ok s) {t : Text}
    (written : (bound <|> name.written) = some t) : s.bound = t := by
  unfold Written.specifier at h
  simp only [bind, Except.bind] at h
  split at h
  · cases h
  rename_i imported isMeaning
  cases h
  cases bound with
  | some b =>
    cases written
    rfl
  | none =>
    cases name with
    | plain name =>
      cases written
      cases isMeaning
      rfl
    | quoted raw => cases written

theorem bound_subset_of_mapM {named : List (ExportName × Option Text)} {specifiers : List Specifier}
    (h : (named.mapM fun (name, bound) => Written.specifier name bound) = .ok specifiers) :
    (named.filterMap fun (name, bound) => bound <|> name.written) ⊆ specifiers.map (·.bound) := by
  induction named generalizing specifiers with
  | nil => exact List.nil_subset _
  | cons first rest ih =>
    obtain ⟨name, bound⟩ := first
    rw [List.mapM_cons] at h
    simp only [bind, Except.bind] at h
    split at h
    · cases h
    rename_i s isSpecifier
    split at h
    · cases h
    rename_i more isMore
    cases h
    intro t member
    obtain ⟨⟨name', bound'⟩, member, written⟩ := List.mem_filterMap.1 member
    rcases List.mem_cons.1 member with same | member
    · cases same
      rw [List.map_cons, bound_of_specifier isSpecifier written]
      exact List.mem_cons_self
    · exact List.mem_cons_of_mem _ (ih isMore (List.mem_filterMap.2 ⟨_, member, written⟩))

/-- A clause that is accepted binds the names that are written. -/
theorem Written.boundNames_subset {w : Written} {path : Text} {clause : ImportClause}
    (means : w.meaning path = .ok clause) : w.boundNames ⊆ clause.boundNames := by
  unfold meaning at means
  simp only [bind, Except.bind] at means
  split at means
  · cases means
  rename_i named isNamed
  split at means
  · cases means
  cases means
  have inNamed := bound_subset_of_mapM isNamed
  intro name member
  simp only [boundNames, groupNames, ImportClause.boundNames, List.mem_append] at member ⊢
  rcases member with isDefault | isNamespace | isNamed
  · exact .inl (.inl isDefault)
  · exact .inl (.inr isNamespace)
  · exact .inr (inNamed isNamed)

/-- The last name that the clause of a text is written to bind. -/
def lastName? (text : Text) : Option Text :=
  match declaration ⟨.ofSource text, 0⟩ with
  | .ok (w, _, _) => w.boundNames.getLast?
  | .error _ => none

theorem Declares.lastName?_eq {text path : Text} {w : Written}
    (declares : Declares ⟨.ofSource text, 0⟩ w path k) :
    lastName? text = w.boundNames.getLast? := by
  rw [lastName?, declares.declaration_eq]

end ImportClause

end StyleBinding
