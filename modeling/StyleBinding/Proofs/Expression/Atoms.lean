import StyleBinding.Proofs.Expression.Tokens
import StyleBinding.Proofs.Import.Walk
import StyleBinding.Proofs.Reading.Tokens

/-!
# Tokens of scripts as atoms

Scripts know names, numbers and punctuators where expressions know atoms only. A
token of a script that is no literal is made of code points that atoms are made
of, or is a comma.
-/

namespace StyleBinding

/-! ## Runs -/

namespace Text

/-- A number of code points at the head of a text belong to a class. -/
def HasRun (p : CodePoint → Bool) (t : Text) (n : Nat) : Prop := (t.take n).all p = true

namespace HasRun

variable {p q : CodePoint → Bool} {t : Text} {m n : Nat}

theorem cons {x : CodePoint} (first : p x = true) (rest : HasRun p t n) :
    HasRun p (x :: t) (n + 1) := by
  rw [HasRun, List.take_succ_cons, List.all_cons, first]
  exact rest

theorem add (first : HasRun p t m) (second : HasRun p (t.drop m) n) : HasRun p t (m + n) := by
  rw [HasRun, List.take_add, List.all_append, Bool.and_eq_true]
  exact ⟨first, second⟩

theorem one (h : t.head?.any p = true) : HasRun p t 1 := by
  cases t with
  | nil => cases h
  | cons x t => exact cons h rfl

theorem mono (h : HasRun p t n) (sub : ∀ x, p x = true → q x = true) : HasRun q t n :=
  List.all_eq_true.2 fun x member => sub x (List.all_eq_true.1 h x member)

theorem cast (h : HasRun p t m) (same : m = n) : HasRun p t n := same ▸ h

theorem countWhile (p : CodePoint → Bool) (t : Text) : HasRun p t (t.countWhile p) := by
  induction t with
  | nil => rfl
  | cons x t ih =>
    rw [Text.countWhile]
    split
    · rename_i inside
      exact cons inside ih
    · rfl

end HasRun

end Text

/-! ## Numbers -/

namespace Lexeme

/-- The code points that numbers are written with. -/
def isNumeric (x : CodePoint) : Bool :=
  isSpacedHex x || isBase x || x.is '.' || x.is 'e' || x.is 'E' || x.is '+' || x.is '-' || x.is 'n'

theorem isNumeric_of_isSpacedHex (x : CodePoint) (h : isSpacedHex x = true) :
    isNumeric x = true := by
  simp only [isNumeric, h, Bool.true_or]

theorem isNumeric_of_isSpacedDecimal (x : CodePoint) (h : isSpacedDecimal x = true) :
    isNumeric x = true :=
  isNumeric_of_isSpacedHex x (by rw [isSpacedHex, h, Bool.or_true])

theorem isNumeric_of_isDecimal (x : CodePoint) (h : x.isDecimal = true) : isNumeric x = true :=
  isNumeric_of_isSpacedDecimal x (by rw [isSpacedDecimal, h, Bool.true_or])

theorem hasRun_digits (t : Text) : t.HasRun isNumeric (Text.countWhile isSpacedDecimal t) :=
  (Text.HasRun.countWhile isSpacedDecimal t).mono isNumeric_of_isSpacedDecimal

theorem hasRun_head {p : CodePoint → Bool} {t : Text} (h : t.head?.any p = true)
    (sub : ∀ x, p x = true → isNumeric x = true) : t.HasRun isNumeric 1 :=
  (Text.HasRun.one h).mono sub

theorem hasRun_prefixed {t : Text} {n : Nat} (h : prefixedLength? t = some n) :
    t.HasRun isNumeric n := by
  obtain _ | ⟨c, rest⟩ := t
  · cases h
  rw [prefixedLength?_cons] at h
  split at h
  · rename_i isPrefixed
    obtain _ | ⟨base, more⟩ := rest
    · simp at isPrefixed
    cases h
    simp only [List.head?_cons, Option.any_some, Bool.and_eq_true, CodePoint.is_iff] at isPrefixed
    obtain ⟨⟨rfl, isBase⟩, _⟩ := isPrefixed
    have isDigits := (Text.HasRun.countWhile isSpacedHex more).mono isNumeric_of_isSpacedHex
    exact .cons (by decide) (.cons (by simp [isNumeric, isBase]) isDigits)
  · cases h

theorem hasRun_decimal {t : Text} {n : Nat} (h : decimalLength? t = some n) :
    t.HasRun isNumeric n := by
  have isPoint (x : CodePoint) (h : x.is '.' = true) : isNumeric x = true := by
    rw [CodePoint.is_iff.1 h]
    decide
  obtain _ | ⟨c, rest⟩ := t
  · cases h
  rw [decimalLength?_cons] at h
  split at h
  · rename_i isDigit
    have first := isNumeric_of_isDecimal c isDigit
    split at h
    · rename_i point
      cases h
      have fraction := hasRun_digits ((rest.drop (Text.countWhile isSpacedDecimal rest)).drop 1)
      have tail := (hasRun_digits rest).add ((hasRun_head point isPoint).add fraction)
      rw [List.drop_drop] at tail
      exact (Text.HasRun.cons first tail).cast (by omega)
    · cases h
      exact .cons first (hasRun_digits rest)
  · split at h
    · rename_i isFraction
      cases h
      rw [Bool.and_eq_true] at isFraction
      obtain _ | ⟨d, more⟩ := rest
      · cases isFraction.2
      exact .cons (isPoint c isFraction.1)
        (.cons (isNumeric_of_isDecimal d isFraction.2) (hasRun_digits more))
    · cases h

theorem hasRun_exponent (t : Text) : t.HasRun isNumeric (exponentLength t) := by
  obtain _ | ⟨c, rest⟩ := t
  · rfl
  rw [exponentLength_cons]
  split
  · rename_i isExponent
    rw [Bool.and_eq_true] at isExponent
    have mark : isNumeric c = true := by
      rcases Bool.or_eq_true_iff.1 isExponent.1 with same | same <;>
        rw [CodePoint.is_iff.1 same] <;> decide
    have sign : Text.HasRun isNumeric rest (signLength rest) := by
      unfold signLength
      split
      · rename_i isSign
        refine hasRun_head isSign fun x either => ?_
        rcases Bool.or_eq_true_iff.1 either with same | same <;>
          rw [CodePoint.is_iff.1 same] <;> decide
      · rfl
    have digits := hasRun_digits ((rest.drop (signLength rest)).drop 1)
    have tail := sign.add ((hasRun_head isExponent.2 isNumeric_of_isDecimal).add digits)
    rw [List.drop_drop] at tail
    exact (Text.HasRun.cons mark tail).cast (by omega)
  · rfl

theorem hasRun_number {t : Text} {n : Nat} (h : numberLength? t = some n) :
    t.HasRun isNumeric n := by
  have plain {m : Nat} (h : plainNumberLength? t = some m) : t.HasRun isNumeric m := by
    unfold plainNumberLength? at h
    split at h
    · cases h
      exact hasRun_prefixed ‹_›
    · obtain ⟨k, isDecimal, rfl⟩ := Option.map_eq_some_iff.1 h
      exact (hasRun_decimal isDecimal).add (hasRun_exponent _)
  obtain ⟨m, isPlain, rfl⟩ := Option.map_eq_some_iff.1 h
  split
  · rename_i isBig
    rw [startsWith_n] at isBig
    refine (plain isPlain).add (hasRun_head isBig fun x same => ?_)
    rw [CodePoint.is_iff.1 same]
    decide
  · exact plain isPlain

end Lexeme

/-! ## Tokens -/

namespace Shape

/-- The characters that do not stand in atoms. -/
def limits : List Char :=
  ['\'', '"', '\x60', ',', '(', '[', '{', ')', ']', '}'] ++ blankCharacters

theorem mem_limits_of_not_isAtomic {x : CodePoint} (h : isAtomic x = false) :
    ∃ y ∈ limits, x = .scalar y := by
  simp only [isAtomic, Bool.not_eq_false', Bool.or_eq_true, Lexeme.isQuote, CodePoint.is_iff,
    Option.isSome_iff_exists] at h
  rcases h with ((((blank | rfl | rfl) | rfl) | rfl) | ⟨b, opener⟩) | ⟨b, closer⟩
  · obtain ⟨y, member, rfl⟩ := CodePoint.mem_of_isBlank blank
    exact ⟨y, List.mem_append_right _ member, rfl⟩
  · exact ⟨_, by decide, rfl⟩
  · exact ⟨_, by decide, rfl⟩
  · exact ⟨_, by decide, rfl⟩
  · exact ⟨_, by decide, rfl⟩
  · rw [Bracket.eq_of_ofOpener? opener]
    cases b <;> exact ⟨_, by decide, rfl⟩
  · rw [Bracket.eq_of_ofCloser? closer]
    cases b <;> exact ⟨_, by decide, rfl⟩

/-- A class without the characters that do not stand in atoms. -/
theorem isAtomic_of {p : CodePoint → Bool} (omitted : CodePoint.omits p limits = true)
    (x : CodePoint) (h : p x = true) : isAtomic x = true := by
  by_contra notAtomic
  obtain ⟨y, member, rfl⟩ := mem_limits_of_not_isAtomic (Bool.not_eq_true _ ▸ notAtomic)
  rw [CodePoint.eq_false_of_omits omitted member] at h
  cases h

theorem hasRun_punctuator {t : Text} {p : String} (h : Lexeme.punctuator? t = some p) :
    p = "," ∨ t.HasRun isAtomic p.toList.length := by
  have each : ∀ p ∈ Lexeme.punctuators, p = "," ∨
      (p.toList.all fun y => isAtomic (.scalar y)) = true := by decide +kernel
  refine (each p (List.mem_of_find?_eq_some h)).imp_right fun atoms => ?_
  have here : t.startsWith p = true := List.find?_some (l := Lexeme.punctuators) h
  obtain ⟨u, rfl⟩ := List.isPrefixOf_iff_prefix.1 here
  have length : p.toList.length = (Text.ofString p).length := (List.length_map _).symm
  rw [Text.HasRun, length, List.take_left, Text.ofString, List.all_map]
  exact atoms

/-- A token of a script that is no literal is a part of an atom, or a comma. -/
theorem hasRun_of_lexed {prev prev' : Previous} {c : Cursor} {n : Nat} {x : CodePoint} {t : Text}
    (h : Lead.Lexed false prev c n prev') (hr : c.rest = x :: t) (noBlank : x.isBlank = false)
    (noRegex : Lexeme.regexLength? c.rest ≠ some n) : Lexeme.stringLength? c.rest = some n ∨
      (n = 1 ∧ x = .scalar ',') ∨ (0 < n ∧ c.rest.HasRun isAtomic n) := by
  cases h with
  | string isString => exact .inl isString
  | regex _ isRegex => exact absurd isRegex noRegex
  | number _ isNumber =>
    have atoms := isAtomic_of (p := Lexeme.isNumeric) (by decide +kernel)
    exact .inr (.inr ⟨(Lexeme.numberLength?_bounds isNumber).1,
      (Lexeme.hasRun_number isNumber).mono atoms⟩)
  | word _ eq pos =>
    subst eq
    have atoms := isAtomic_of (p := (·.isName)) (by decide +kernel)
    refine .inr (.inr ⟨pos, ?_⟩)
    rw [ImportClause.nameLength_of_pos pos]
    exact (Text.HasRun.countWhile _ _).mono atoms
  | @punctuator _ _ p _ _ _ _ _ isPunctuator =>
    have pos := (Lexeme.punctuator?_bounds isPunctuator).1
    rcases hasRun_punctuator isPunctuator with rfl | atoms
    · obtain ⟨y, u, q, isComma, whole⟩ := Lead.cons_of_punctuator isPunctuator
      obtain ⟨rfl, _⟩ := List.cons.inj (isComma : [','] = _)
      exact .inr (.inl ⟨rfl, (List.cons.inj (hr.symm.trans whole)).1⟩)
    · exact .inr (.inr ⟨pos, atoms⟩)
  | other hr' noQuote noTemplate noOpener noCloser _ _ noPunctuator =>
    obtain ⟨rfl, rfl⟩ := List.cons.inj (hr.symm.trans hr')
    have noComma : x.is ',' = false := by
      by_contra isComma
      rw [Bool.not_eq_false, CodePoint.is_iff] at isComma
      rw [hr, isComma] at noPunctuator
      exact absurd rfl (List.find?_eq_none.1 noPunctuator "," (by decide))
    refine .inr (.inr ⟨Nat.one_pos, ?_⟩)
    rw [hr]
    refine .cons ?_ rfl
    simp [isAtomic, noBlank, noQuote, noTemplate, noComma, noOpener, noCloser]

/-! ## What plain atoms do not hide -/

/-- A regular expression ends with a slash in the line it begins in. -/
theorem any_of_regexTail? {inBrackets : Bool} {t : Text} {n m : Nat}
    (h : Lexeme.regexTail? inBrackets t = some n) (le : n ≤ m) :
    (Text.before '\n' (t.take m)).any (·.is '/') = true := by
  have inLine {c : CodePoint} {u : Text} (noFeed : ¬ c.is '\n' = true)
      (rest : c.is '/' = true ∨ (Text.before '\n' u).any (·.is '/') = true) :
      (Text.before '\n' (c :: u)).any (·.is '/') = true := by
    rw [Text.before, List.takeWhile_cons_of_pos (by rw [eq_false_of_ne_true noFeed]; rfl),
      List.any_cons, Bool.or_eq_true]
    exact rest
  fun_induction Lexeme.regexTail? inBrackets t generalizing n m with
  | case1 | case2 | case3 | case4 => cases h
  | case5 inBrackets c noFeed isEscape d more noFeed' ih =>
    obtain ⟨k, hk, rfl⟩ := Option.map_eq_some_iff.1 h
    obtain ⟨m, rfl⟩ : ∃ l, m = l + 2 := ⟨m - 2, by omega⟩
    exact inLine noFeed (.inr (inLine noFeed' (.inr (ih hk (by omega)))))
  | case6 c rest noFeed noEscape ih
  | case8 inBrackets c rest noFeed noEscape isOutside noSlash ih =>
    obtain ⟨k, hk, rfl⟩ := Option.map_eq_some_iff.1 h
    obtain ⟨m, rfl⟩ : ∃ l, m = l + 1 := ⟨m - 1, by omega⟩
    exact inLine noFeed (.inr (ih hk (by omega)))
  | case7 inBrackets c rest noFeed noEscape isOutside isSlash =>
    cases h
    obtain ⟨m, rfl⟩ : ∃ l, m = l + 1 := ⟨m - 1, by omega⟩
    exact inLine noFeed (.inl isSlash)

theorem isMarkedBySlash_of_regex {x : CodePoint} {t : Text} {n m : Nat}
    (h : Lexeme.regexLength? (x :: t) = some n) (le : n ≤ m + 1) :
    (x.is '/' && isMarkedBySlash (t.take m)) = true := by
  unfold Lexeme.regexLength? at h
  split at h
  · rename_i c rest same
    obtain ⟨rfl, rfl⟩ := List.cons.inj same
    split at h
    · cases h
    obtain ⟨k, isTail, rfl⟩ := Option.map_eq_some_iff.1 h
    dsimp only at le
    have slash := any_of_regexTail? (m := m) isTail (by omega)
    rw [isMarkedBySlash, slash, Bool.or_true]
    rfl
  · cases h

section

variable {text : Text} {d : Cursor} {x : CodePoint} {t : Text}

/-- What stands at the head of a plain text is no slash that something marks, and no
less-than sign that an element begins with. -/
theorem marks_of_arePlain (plain : arePlain text d = true) (on : d.On text)
    (hd : d.skipSeparators.1 = d) (hr : d.rest = x :: t) :
    (x.is '/' && isMarkedBySlash t) = false ∧ (x.is '<' && Lead.startsElement t) = false := by
  by_cases atomic : isAtomic x = true
  · have plainAtom := (of_arePlain_atom plain on hd hr atomic).1
    rw [hr, Text.countWhile, if_pos atomic] at plainAtom
    exact ⟨(isPlainAtom_succ plainAtom).1, (isPlainAtom_succ plainAtom).2.1⟩
  · have differs {y : Char} (atomicY : isAtomic (.scalar y) = true) : x.is y = false := by
      by_contra same
      rw [Bool.not_eq_false, CodePoint.is_iff] at same
      exact atomic (same ▸ atomicY)
    rw [differs (by decide), differs (by decide)]
    exact ⟨rfl, rfl⟩

end

end Shape

end StyleBinding
