import StyleBinding.Proofs.Reading.Lookahead

/-!
# Tokens in front of another text

What a place begins is told by its first code points and by the token before.
`Lead.Lexed` lists the ways in which an ordinary token is read. Each of them is
open in front of every text that is alike, but for a slash that is stray.
-/

namespace StyleBinding

open Document Cursor Lexeme

/-! ## The token before -/

theorem Previous.punctuator_congr {p q : Previous}
    (expression : p.allowsExpression = q.allowsExpression) (text : String) :
    p.punctuator text = q.punctuator text := by
  rw [Previous.punctuator, Previous.punctuator, expression]

namespace Lead

variable {p q : Previous} {topLevel : Bool} {c : Cursor} {x : CodePoint} {t : Text}

theorem plain_congr (punctuator : ∀ text, punctuator? c.rest = some text →
      p.punctuator text = q.punctuator text)
    (member : p = .mark "." ↔ q = .mark ".") (hr : c.rest = x :: t) :
    plain topLevel p c hr = plain topLevel q c hr := by
  unfold plain word
  simp only [ne_eq, member]
  split
  · rfl
  · split
    · rfl
    · split
      · rename_i text isPunctuator
        rw [punctuator text isPunctuator]
      · rfl

theorem read_congr (expression : p.allowsExpression = q.allowsExpression)
    (member : p = .mark "." ↔ q = .mark ".") (hr : c.rest = x :: t) :
    read topLevel p c hr = read topLevel q c hr := by
  unfold read
  simp only [expression,
    plain_congr (fun text _ => Previous.punctuator_congr expression text) member]

end Lead

/-- Tokens behind which the same is read. -/
structure Previous.Like (p q : Previous) : Prop where
  expression : p.allowsExpression = q.allowsExpression
  head : p.opensHead = q.opensHead
  member : p = .mark "." ↔ q = .mark "."

namespace Previous.Like

theorem refl (p : Previous) : p.Like p := ⟨rfl, rfl, .rfl⟩

variable {p q : Previous}

theorem symm (h : p.Like q) : q.Like p := ⟨h.expression.symm, h.head.symm, h.member.symm⟩

theorem punctuator_eq (h : p.Like q) (text : String) : p.punctuator text = q.punctuator text :=
  punctuator_congr h.expression text

end Previous.Like

namespace Lead

variable {topLevel : Bool} {prev prev' : Previous} {c : Cursor} {b : Bracket} {x : CodePoint}
  {t : Text}

/-! ## Brackets, templates and elements -/

theorem at_opener (hr : c.rest = .scalar b.opener :: t) : Lead.At topLevel prev c (.opener b) := by
  refine ⟨_, t, hr, ?_⟩
  unfold read
  cases b <;> rfl

theorem at_closer (hr : c.rest = .scalar b.closer :: t) : Lead.At topLevel prev c (.closer b) := by
  refine ⟨_, t, hr, ?_⟩
  unfold read
  cases b <;> rfl

theorem at_template (hr : c.rest = .scalar '\x60' :: t) : Lead.At topLevel prev c .template :=
  ⟨_, t, hr, rfl⟩

theorem at_element (hr : c.rest = .scalar '<' :: t) (allowed : prev.allowsExpression = true)
    (starts : startsElement t = true) : Lead.At topLevel prev c .element := by
  refine ⟨_, t, hr, ?_⟩
  unfold read
  rw [allowed, starts]
  rfl

/-! ## Ordinary tokens -/

/-- A code point that is neither a quote nor a bracket of any kind. -/
structure IsPlain (x : CodePoint) : Prop where
  noQuote : isQuote x = false
  noTemplate : x.is '\x60' = false
  noOpener : Bracket.ofOpener? x = none
  noCloser : Bracket.ofCloser? x = none

theorem IsPlain.of_class {p : CodePoint → Bool} (h : p x = true)
    (each : CodePoint.omits p ['\'', '"', '\x60', '(', '[', '{', ')', ']', '}'] = true) :
    IsPlain x := by
  have differs (y : Char) (member : y ∈ ['\'', '"', '\x60', '(', '[', '{', ')', ']', '}']) :
      x.is y = false := by
    rw [Bool.eq_false_iff]
    intro same
    rw [CodePoint.is_iff.1 same, CodePoint.eq_false_of_omits each member] at h
    cases h
  constructor
  · simp [isQuote, differs]
  · simp [differs]
  · simp [Bracket.ofOpener?, Bracket.opener, differs]
  · simp [Bracket.ofCloser?, Bracket.closer, differs]

theorem regexLength?_of_ne (other : x.is '/' = false) : regexLength? (x :: t) = none := by
  rw [regexLength?.eq_def]
  split
  · rename_i same
    cases same
    cases other
  · rfl

theorem read_eq_plain {hr : c.rest = x :: t} (isPlain : IsPlain x)
    (noElement : (x.is '<' && prev.allowsExpression && startsElement t) = false)
    (noRegex : prev.allowsExpression = true → regexLength? c.rest = none) :
    read topLevel prev c hr = plain topLevel prev c hr := by
  unfold read
  rw [isPlain.noQuote, isPlain.noTemplate, if_neg Bool.false_ne_true, if_neg Bool.false_ne_true]
  simp only [isPlain.noOpener, isPlain.noCloser]
  rw [noElement, if_neg Bool.false_ne_true]
  split
  · rename_i allowed
    split
    · rename_i n isRegex
      rw [noRegex allowed] at isRegex
      cases isRegex
    · rfl
  · rfl

/-- A class of code points that begins no other kind of token. -/
theorem read_eq_plain_of_class {hr : c.rest = x :: t} {p : CodePoint → Bool} (h : p x = true)
    (each : CodePoint.omits p ['\'', '"', '\x60', '(', '[', '{', ')', ']', '}'] = true)
    (less : p (.scalar '<') = false) (slash : p (.scalar '/') = false) :
    read topLevel prev c hr = plain topLevel prev c hr := by
  have other {y : Char} (hy : p (.scalar y) = false) : x.is y = false := by
    rw [Bool.eq_false_iff]
    intro same
    rw [CodePoint.is_iff.1 same, hy] at h
    cases h
  refine read_eq_plain (.of_class h each) ?_ fun _ => ?_
  · rw [other less, Bool.false_and, Bool.false_and]
  · rw [hr]
    exact regexLength?_of_ne (other slash)

theorem eq_token_of_lexeme {length? : Text → Option Nat}
    (bounds : ∀ {t n}, length? t = some n → 0 < n ∧ n ≤ t.length) (refusal : Refusal) {n : Nat}
    (hn : length? c.rest = some n) :
    ∃ past, lexeme c length? bounds refusal = .ok (.token ⟨c.advance n, past⟩ .value) := by
  refine ⟨past_advance (bounds hn).1 (bounds hn).2, ?_⟩
  unfold lexeme
  split
  · rename_i m hm
    rw [hn] at hm
    cases hm
    rfl
  · rename_i none
    rw [hn] at none
    cases none

theorem cons_of_startsNumber {u : Text} (h : startsNumber u = true) :
    ∃ x t, u = x :: t ∧ (x.isDigit || x.is '.') = true := by
  obtain _ | ⟨x, t⟩ := u
  · cases h
  · refine ⟨x, t, rfl, ?_⟩
    rw [startsNumber, Bool.or_eq_true] at h
    rw [Bool.or_eq_true]
    exact h.imp_right fun both => (Bool.and_eq_true _ _ ▸ both).1

theorem cons_of_nameLength {u : Text} (h : 0 < nameLength u) :
    ∃ x t, u = x :: t ∧ x.isName = true := by
  rw [nameLength_eq_ite] at h
  split at h
  · cases h
  obtain _ | ⟨x, t⟩ := u
  · cases h
  · refine ⟨x, t, rfl, ?_⟩
    by_contra noName
    have none := (Text.countWhile_eq_zero_iff (p := (·.isName)) (x :: t)).2
      (eq_false_of_ne_true noName)
    omega

theorem cons_of_punctuator {u : Text} {p : String} (h : punctuator? u = some p) :
    ∃ y t q, p.toList = y :: q ∧ u = .scalar y :: t := by
  have pos := (punctuator?_bounds h).1
  have here : u.startsWith p = true := List.find?_some (l := punctuators) h
  obtain ⟨v, rfl⟩ := List.isPrefixOf_iff_prefix.1 here
  cases hp : p.toList with
  | nil =>
    rw [hp] at pos
    cases pos
  | cons y q =>
    refine ⟨y, q.map .scalar ++ v, q, rfl, ?_⟩
    rw [Text.ofString, hp]
    rfl

/-- The characters that punctuators begin with are no quotes or brackets. -/
theorem head_of_punctuator : ∀ p ∈ punctuators,
    ∀ y ∈ ['\'', '"', '\x60', '(', '[', '{', ')', ']', '}'], p.toList.head? ≠ some y := by
  have all : (punctuators.all fun p => ['\'', '"', '\x60', '(', '[', '{', ')', ']', '}'].all
      fun y => p.toList.head? != some y) = true := by decide
  intro p member y isMark
  exact bne_iff_ne.1 (List.all_eq_true.1 (List.all_eq_true.1 all p member) y isMark)

/-- What stands at a place is read there. -/
theorem Lexed.at_token {n : Nat} (h : Lexed topLevel prev c n prev') :
    ∃ past, Lead.At topLevel prev c (.token ⟨c.advance n, past⟩ prev') := by
  cases h with
  | string isString =>
    obtain ⟨past, token⟩ := eq_token_of_lexeme stringLength?_bounds
      (.at .unterminatedString c.offset) isString
    have first : ∃ x t, c.rest = x :: t ∧ isQuote x = true := by
      unfold stringLength? at isString
      split at isString
      · exact ⟨_, _, ‹_›, by decide⟩
      · exact ⟨_, _, ‹_›, by decide⟩
      · cases isString
    obtain ⟨x, t, hr, quote⟩ := first
    refine ⟨past, x, t, hr, ?_⟩
    rw [read, if_pos quote, token]
  | regex allowed isRegex =>
    have first : ∃ t, c.rest = .scalar '/' :: t := by
      unfold regexLength? at isRegex
      split at isRegex
      · exact ⟨_, ‹_›⟩
      · cases isRegex
    obtain ⟨t, hr⟩ := first
    refine ⟨past_advance (regexLength?_bounds isRegex).1 (regexLength?_bounds isRegex).2,
      _, t, hr, ?_⟩
    have isPlain : IsPlain (.scalar '/') := .of_class (p := (·.is '/')) rfl (by decide)
    unfold read
    rw [isPlain.noQuote, isPlain.noTemplate, if_neg Bool.false_ne_true, if_neg Bool.false_ne_true]
    simp only [isPlain.noOpener, isPlain.noCloser]
    rw [if_neg (by simp), if_pos allowed]
    split
    · rename_i m hm
      rw [isRegex] at hm
      cases hm
      rfl
    · rename_i noRegex
      rw [isRegex] at noRegex
      cases noRegex
  | number starts isNumber =>
    obtain ⟨past, token⟩ := eq_token_of_lexeme numberLength?_bounds (.strayDigit c.offset) isNumber
    obtain ⟨x, t, hr, first⟩ := cons_of_startsNumber starts
    refine ⟨past, x, t, hr, ?_⟩
    rw [read_eq_plain_of_class (p := fun x => x.isDigit || x.is '.') first (by decide) (by decide)
      (by decide), plain, if_pos starts, token]
  | word noNumber eq pos goesOn =>
    subst eq
    obtain ⟨x, t, hr, first⟩ := cons_of_nameLength pos
    refine ⟨past_advance pos (nameLength_le _), x, t, hr, ?_⟩
    rw [read_eq_plain_of_class (p := (·.isName)) first (by decide) (by decide)
      (by decide), plain,
      noNumber, if_neg Bool.false_ne_true, dif_pos pos, Lead.word]
    split
    · rename_i announces
      rw [goesOn announces]
    · rfl
  | @punctuator x t p hr noNumber noName noElement noRegex isPunctuator =>
    refine ⟨past_advance (punctuator?_bounds isPunctuator).1 (punctuator?_bounds isPunctuator).2,
      x, t, hr, ?_⟩
    have isPlain : IsPlain x := by
      obtain ⟨y, u, q, hp, hu⟩ := cons_of_punctuator isPunctuator
      obtain ⟨rfl, rfl⟩ := List.cons.inj (hr.symm.trans hu)
      refine .of_class (p := (·.is y)) (by simp) (List.all_eq_true.2 fun z member => ?_)
      have := head_of_punctuator p (List.mem_of_find?_eq_some isPunctuator) z member
      rw [hp, List.head?_cons, ne_eq, Option.some_inj] at this
      rw [Bool.not_eq_true', Bool.eq_false_iff]
      exact fun same => this (CodePoint.scalar_inj.1 (CodePoint.is_iff.1 same)).symm
    rw [read_eq_plain isPlain noElement noRegex, plain, noNumber, if_neg Bool.false_ne_true,
      dif_neg (by omega)]
    split
    · rename_i q hq
      rw [isPunctuator] at hq
      cases hq
      rfl
    · rename_i none
      rw [isPunctuator] at none
      cases none
  | @other x t hr noQuote noTemplate noOpener noCloser noNumber noName noPunctuator =>
    refine ⟨past_of_cons hr, x, t, hr, ?_⟩
    have differs {y : Char} {p : String} (member : p ∈ punctuators) (hp : p.toList = [y]) :
        x.is y = false := by
      rw [Bool.eq_false_iff]
      intro same
      have := List.find?_eq_none.1 noPunctuator p member
      rw [hr, CodePoint.is_iff.1 same] at this
      refine this (List.isPrefixOf_iff_prefix.2 ?_)
      rw [Text.ofString, hp]
      exact List.prefix_append ..
    rw [read_eq_plain ⟨noQuote, noTemplate, noOpener, noCloser⟩ (by
        rw [differs (y := '<') (p := "<") (by decide) rfl]
        rfl) fun _ => by
        rw [hr]
        exact regexLength?_of_ne (differs (p := "/") (by decide) rfl), plain, noNumber,
      if_neg Bool.false_ne_true, dif_neg (by omega)]
    split
    · rename_i p hp
      rw [noPunctuator] at hp
      cases hp
    · rfl

/-- The keyword of a declaration is read where something to be declared follows. -/
theorem at_declaration (announces : Announces topLevel prev (c.rest.take (nameLength c.rest)))
    (starts : startsDeclaration (c.advance (nameLength c.rest)) = .ok true) :
    ∃ past, Lead.At topLevel prev c (.declaration ⟨c.advance (nameLength c.rest), past⟩) := by
  have pos : 0 < nameLength c.rest := by
    by_contra none
    rw [Nat.eq_zero_of_not_pos none] at announces
    cases announces.1
  have first : ∃ t, c.rest = .scalar 'i' :: t := by
    have word := List.take_append_drop (nameLength c.rest) c.rest
    rw [announces.1] at word
    exact ⟨_, word.symm⟩
  obtain ⟨t, hr⟩ := first
  refine ⟨past_advance pos (nameLength_le _), _, t, hr, ?_⟩
  have noNumber : startsNumber c.rest = false := by
    rw [hr]
    rfl
  rw [read_eq_plain_of_class (p := (·.isName)) rfl (by decide) (by decide) (by decide),
    plain,
    noNumber, if_neg Bool.false_ne_true, dif_pos pos, Lead.word]
  exact (if_pos announces).trans (by rw [starts])

/-! ## In front of another text -/

theorem startsNumber_eq {u v w : Text} (nonempty : u ≠ []) (alike : Text.Alike v w) :
    startsNumber (u ++ w) = startsNumber (u ++ v) := by
  obtain _ | ⟨x, u⟩ := u
  · exact absurd rfl nonempty
  · rw [List.cons_append, List.cons_append, startsNumber, startsNumber,
      (alike.append u).head_any (by decide) (by decide)]

theorem startsElement_eq_any (u : Text) :
    startsElement u = u.head?.any fun x => x.is '>' || x.isLetter || x.is '_' || x.is '$' := by
  cases u <;> rfl

theorem startsElement_eq {u v : Text} (alike : Text.Alike u v) :
    startsElement u = startsElement v := by
  rw [startsElement_eq_any, startsElement_eq_any]
  exact alike.head_any (by decide) (by decide)

/-- The first character of a punctuator is a punctuator on its own. -/
theorem punctuator_of_head : ∀ p ∈ punctuators,
    ∃ q ∈ punctuators, q.toList = p.toList.take 1 := by decide

theorem punctuator?_eq_none {v w : Text} (h : punctuator? (x :: v) = none) :
    punctuator? (x :: w) = none := by
  refine List.find?_eq_none.2 fun p member here => ?_
  obtain ⟨q, memberQ, isHead⟩ := punctuator_of_head p member
  refine List.find?_eq_none.1 h q memberQ (List.isPrefixOf_iff_prefix.2 ?_)
  have first := (List.take_prefix 1 _).trans (List.isPrefixOf_iff_prefix.1 here)
  rw [Text.ofString, ← List.map_take, ← isHead] at first
  have one : q.toList.length ≤ 1 := by
    rw [isHead, List.length_take]
    exact Nat.min_le_left _ _
  generalize hq : q.toList = chars at *
  obtain _ | ⟨y, _ | ⟨z, r⟩⟩ := chars
  · rw [Text.ofString, hq]
    exact List.nil_prefix
  · rw [List.map_cons, List.map_nil, List.cons_prefix_cons] at first
    rw [Text.ofString, hq, List.map_cons, List.map_nil, List.cons_prefix_cons]
    exact ⟨first.1, List.nil_prefix⟩
  · simp at one

/-- A token is read in front of every text that is alike, in the same way. -/
theorem Lexed.carried {a b : Nat} {u v w : Text} {prev₂ : Previous}
    (h : Lexed topLevel prev ⟨a, u ++ v⟩ u.length prev') (alike : Text.Alike v w)
    (stray : IsStray prev ⟨a, u ++ v⟩ → regexLength? (u ++ w) = none) (like : prev.Like prev₂)
    (goesOn : Announces topLevel prev₂ u → startsDeclaration ⟨b + u.length, w⟩ = .ok false) :
    Lexed topLevel prev₂ ⟨b, u ++ w⟩ u.length prev' := by
  generalize length : u.length = n at h
  cases h with
  | string isString => exact .string (stringLength?_eq isString (Nat.le_of_eq length.symm))
  | regex allowed isRegex =>
    exact .regex (like.expression ▸ allowed)
      (regexLength?_eq alike isRegex (Nat.le_of_eq length.symm))
  | number starts isNumber =>
    have nonempty : u ≠ [] := by
      rintro rfl
      have := (numberLength?_bounds isNumber).1
      simp only [List.length_nil] at length
      omega
    exact .number ((startsNumber_eq nonempty alike).trans starts)
      (numberLength?_eq alike isNumber (Nat.le_of_eq length.symm))
  | word noNumber eq pos _ =>
    subst length
    have nonempty : u ≠ [] := List.ne_nil_of_length_pos pos
    have same := nameLength_eq alike (Nat.le_of_eq eq.symm)
    have word (t : Text) : (u ++ t).take u.length = u := List.take_left
    have carried : Lexed topLevel prev₂ ⟨b, u ++ w⟩ u.length (.name ((u ++ w).take u.length)) :=
      .word ((startsNumber_eq nonempty alike).trans noNumber) (eq.trans same.symm) pos
        (by dsimp only; rw [word]; simpa only [advance, List.drop_left] using goesOn)
    dsimp only at carried ⊢
    rwa [word] at carried ⊢
  | @punctuator x t p hr noNumber noName noElement noRegex isPunctuator =>
    have pos := (punctuator?_bounds isPunctuator).1
    obtain _ | ⟨y, u⟩ := u
    · simp only [List.length_nil] at length
      omega
    obtain ⟨rfl, rfl⟩ := List.cons.inj hr
    have noRegex : prev.allowsExpression = true → regexLength? (y :: u ++ w) = none := by
      intro allowed
      cases slash : y.is '/' with
      | true => exact stray ⟨allowed, congrArg some (CodePoint.is_iff.1 slash), noRegex allowed⟩
      | false => exact regexLength?_of_ne slash
    have carried : Lexed topLevel prev₂ ⟨b, y :: u ++ w⟩ p.toList.length (prev₂.punctuator p) :=
      .punctuator rfl ((startsNumber_eq (List.cons_ne_nil y u) alike).trans noNumber)
        ((nameLength_eq alike (by rw [noName]; exact Nat.zero_le _)).trans noName)
        (by
          rw [← like.expression]
          exact (startsElement_eq (alike.append u)) ▸ noElement)
        (fun allowed => noRegex (like.expression ▸ allowed))
        (punctuator?_eq alike isPunctuator length.symm)
    rwa [← like.punctuator_eq] at carried
  | @other x t hr noQuote noTemplate noOpener noCloser noNumber noName noPunctuator =>
    obtain ⟨y, rfl⟩ := List.length_eq_one_iff.1 length
    obtain ⟨rfl, rfl⟩ := List.cons.inj hr
    exact .other rfl noQuote noTemplate noOpener noCloser
      ((startsNumber_eq (List.cons_ne_nil y []) alike).trans noNumber)
      ((nameLength_eq alike (by rw [noName]; exact Nat.zero_le _)).trans noName)
      (punctuator?_eq_none noPunctuator)

end Lead

end StyleBinding
