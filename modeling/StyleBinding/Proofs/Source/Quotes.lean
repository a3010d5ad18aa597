import StyleBinding.Proofs.Source.Escape
import StyleBinding.Proofs.Text.Cutting

/-!
# What literals look like

A string literal has a quote at both ends, and between them neither that quote nor a
line feed, unless a backslash stands in front. `IsString` says so, and the lexical
function reads such texts and no others. A literal has a meaning unless one of its
escapes names a number beyond the last code point, which `EscapesBeyond` says of the
text between its marks: a backslash takes the code point behind it, and what an
escape takes further on has no backslash in it.
-/

namespace StyleBinding

/-! ## Between the marks -/

/-- A text in which some characters stand behind a backslash only. -/
inductive IsBody (stops : List Char) : Text → Prop
  | nil : IsBody stops []
  | plain {x : CodePoint} {t : Text} :
    (∀ y ∈ '\\' :: stops, x ≠ .scalar y) → IsBody stops t → IsBody stops (x :: t)
  | escape {x : CodePoint} {t : Text} : IsBody stops t → IsBody stops (.scalar '\\' :: x :: t)

/-- A string literal: a quote, a text in which that quote and line feeds are escaped,
and the quote once more. -/
def IsString (raw : Text) : Prop :=
  ∃ quote ∈ ['\'', '"'], ∃ body, IsBody [quote, '\n'] body ∧
    raw = .scalar quote :: (body ++ [.scalar quote])

namespace Lexeme

theorem not_is_of_ne {x : CodePoint} {y : Char} (h : x ≠ .scalar y) : x.is y = false :=
  Bool.eq_false_iff.2 fun same => h (CodePoint.is_iff.1 same)

variable {quote : Char} {t : Text} {n : Nat}

theorem stringTail?_of_isBody {body : Text} (h : IsBody [quote, '\n'] body)
    (isQuote : quote ∈ ['\'', '"']) (behind : Text) :
    stringTail? quote (body ++ .scalar quote :: behind) = some (body.length + 1) := by
  induction h with
  | nil => rw [List.nil_append, stringTail?_cons, if_pos (CodePoint.is_iff.2 rfl), List.length_nil]
  | @plain x t others _ ih =>
    have noQuote := not_is_of_ne (others quote (by simp))
    have noFeed := not_is_of_ne (others '\n' (by simp))
    have noEscape := not_is_of_ne (others '\\' (by simp))
    rw [List.cons_append, stringTail?_cons, noQuote, noFeed, noEscape, ih, List.length_cons]
    rfl
  | @escape x t _ ih =>
    have noQuote : (CodePoint.scalar '\\').is quote = false := by
      rcases List.mem_pair.1 isQuote with rfl | rfl <;> rfl
    have step : stringTail? quote (.scalar '\\' :: x :: (t ++ .scalar quote :: behind)) =
        (stringTail? quote (t ++ .scalar quote :: behind)).map (· + 2) := by
      rw [stringTail?_cons, noQuote]
      rfl
    rw [List.cons_append, List.cons_append, step, ih]
    rfl

theorem isBody_of_stringTail? (h : stringTail? quote t = some n) :
    ∃ body behind, t = body ++ .scalar quote :: behind ∧ n = body.length + 1 ∧
      IsBody [quote, '\n'] body := by
  fun_induction stringTail? quote t generalizing n with
  | case1 | case3 | case4 => cases h
  | case2 c rest isEnd =>
    cases h
    rw [CodePoint.is_iff.1 isEnd]
    exact ⟨[], rest, rfl, rfl, .nil⟩
  | case5 c noEnd noFeed isEscape d more ih =>
    obtain ⟨m, found, rfl⟩ := Option.map_eq_some_iff.1 h
    obtain ⟨body, behind, rfl, rfl, isBody⟩ := ih found
    rw [CodePoint.is_iff.1 isEscape]
    exact ⟨_ :: d :: body, behind, rfl, rfl, .escape isBody⟩
  | case6 c rest noEnd noFeed noEscape ih =>
    obtain ⟨m, found, rfl⟩ := Option.map_eq_some_iff.1 h
    obtain ⟨body, behind, rfl, rfl, isBody⟩ := ih found
    refine ⟨c :: body, behind, rfl, rfl, .plain ?_ isBody⟩
    simpa only [List.forall_mem_cons, List.not_mem_nil, false_imp_iff, implies_true, and_true,
      ne_eq, ← CodePoint.is_iff] using ⟨noEscape, noEnd, noFeed⟩

/-- A string literal is read whole, whatever stands behind it. -/
theorem stringLength?_of_isString {raw : Text} (h : IsString raw) (behind : Text) :
    stringLength? (raw ++ behind) = some raw.length := by
  obtain ⟨quote, isQuote, body, isBody, rfl⟩ := h
  have tail := stringTail?_of_isBody isBody isQuote behind
  rw [List.cons_append, List.append_assoc, List.singleton_append, List.length_cons,
    List.length_append, List.length_singleton]
  rcases List.mem_pair.1 isQuote with rfl | rfl
  all_goals
    rw [stringLength?, tail]
    rfl

/-- What is read as a string literal is one. -/
theorem isString_of_stringLength? (h : stringLength? t = some n) : IsString (t.take n) := by
  have closed {quote : Char} {rest : Text} (isQuote : quote ∈ ['\'', '"'])
      (found : (stringTail? quote rest).map (· + 1) = some n) :
      IsString ((.scalar quote :: rest).take n) := by
    obtain ⟨m, tail, rfl⟩ := Option.map_eq_some_iff.1 found
    obtain ⟨body, behind, rfl, rfl, isBody⟩ := isBody_of_stringTail? tail
    refine ⟨quote, isQuote, body, isBody, ?_⟩
    rw [List.take_succ_cons, List.take_length_add_append]
    rfl
  unfold stringLength? at h
  split at h
  · exact closed (by simp) h
  · exact closed (by simp) h
  · cases h

end Lexeme

theorem IsString.of_length {raw : Text} (h : Lexeme.stringLength? raw = some raw.length) :
    IsString raw := by
  have := Lexeme.isString_of_stringLength? h
  rwa [List.take_length] at this

theorem IsString.head {raw : Text} (h : IsString raw) :
    ∃ x t, raw = x :: t ∧ Lexeme.isQuote x = true := by
  obtain ⟨quote, isQuote, body, -, rfl⟩ := h
  refine ⟨_, _, rfl, ?_⟩
  rcases List.mem_pair.1 isQuote with rfl | rfl <;> rfl

/-! ## Escapes beyond the last code point -/

namespace Literal

/-- A text with an escape in it that names a number beyond the last code point. The
number stands in braces, in hexadecimal digits. -/
inductive EscapesBeyond : Text → Prop
  | here {digits rest : Text} : (∀ d ∈ digits, d.isHex = true) →
    0x110000 ≤ Text.hexNumber digits →
    EscapesBeyond (("\\u\x7b" : Text) ++ (digits ++ ("\x7d" : Text) ++ rest))
  | plain {x : CodePoint} {t : Text} : x ≠ .scalar '\\' → EscapesBeyond t → EscapesBeyond (x :: t)
  | escape {x : CodePoint} {t : Text} : EscapesBeyond t → EscapesBeyond (.scalar '\\' :: x :: t)

theorem bracedNumber?_of_hex {digits : Text} (hex : ∀ d ∈ digits, d.isHex = true)
    (nonempty : digits ≠ []) (rest : Text) :
    bracedNumber? (.scalar '\x7b' :: (digits ++ ("\x7d" : Text) ++ rest)) =
      some (digits.length + 2, Text.hexNumber digits) := by
  have run : Text.countWhile (·.isHex) (digits ++ ("\x7d" : Text) ++ rest) = digits.length := by
    rw [Text.countWhile_eq, List.append_assoc, List.takeWhile_append_of_pos hex]
    change (digits ++ []).length = _
    rw [List.append_nil]
  rw [bracedNumber?, run, List.append_assoc, List.take_left, List.drop_left, if_pos]
  rw [Bool.and_eq_true]
  refine ⟨?_, List.isPrefixOf_iff_prefix.2 (List.prefix_append ..)⟩
  rw [bne_iff_ne, ne_eq, List.length_eq_zero_iff]
  exact nonempty

theorem digits_of_bracedNumber? {t : Text} {length n : Nat}
    (h : bracedNumber? t = some (length, n)) :
    ∃ digits rest, t = .scalar '\x7b' :: (digits ++ ("\x7d" : Text) ++ rest) ∧
      (∀ d ∈ digits, d.isHex = true) ∧ length = digits.length + 2 ∧ n = Text.hexNumber digits := by
  unfold bracedNumber? at h
  split at h
  · rename_i rest
    dsimp only at h
    split at h
    · rename_i closed
      cases h
      rw [Bool.and_eq_true] at closed
      obtain ⟨behind, same⟩ := List.isPrefixOf_iff_prefix.1 closed.2
      refine ⟨rest.take (Text.countWhile (·.isHex) rest), behind, ?_, ?_, ?_, rfl⟩
      · rw [List.append_assoc]
        exact congrArg _ ((List.take_append_drop ..).symm.trans (congrArg _ same.symm))
      · rw [Text.countWhile_eq, ← List.prefix_iff_eq_take.1 (List.takeWhile_prefix _)]
        exact fun d member => List.mem_takeWhile_imp member
      · rw [List.length_take_of_le (Text.countWhile_le ..)]
    · cases h
  · cases h

/-- What an escape takes behind its letter has no backslash in it. -/
theorem plain_of_escape (c : CodePoint) (rest : Text) :
    ∀ x ∈ rest.take (escape c rest).1, x ≠ .scalar '\\' := by
  have noHex : (CodePoint.scalar '\\').isHex = false := by decide
  have ofHex {digits : Text} (hex : ∀ d ∈ digits, d.isHex = true) :
      ∀ x ∈ digits, x ≠ .scalar '\\' := by
    rintro x member rfl
    exact Bool.false_ne_true (noHex.symm.trans (hex _ member))
  have ofFixed {width length n : Nat} (fixed : fixedNumber? width rest = some (length, n)) :
      ∀ x ∈ rest.take length, x ≠ .scalar '\\' := by
    unfold fixedNumber? at fixed
    split at fixed
    · rename_i enough
      cases fixed
      rw [Text.countWhile_eq] at enough
      refine ofHex fun d member => List.mem_takeWhile_imp (p := (·.isHex)) (l := rest) ?_
      rw [List.prefix_iff_eq_take.1 (List.takeWhile_prefix (p := (·.isHex)) (l := rest))]
      exact (List.take_prefix_take_left enough).subset member
    · cases fixed
  rw [escape]
  split
  · rename_i length n isNumber
    unfold escapeNumber? at isNumber
    split at isNumber
    · cases braced : bracedNumber? rest with
      | none =>
        rw [braced] at isNumber
        exact ofFixed isNumber
      | some r =>
        rw [braced] at isNumber
        cases isNumber
        obtain ⟨digits, behind, rfl, hex, rfl, -⟩ := digits_of_bracedNumber? braced
        have whole : (.scalar '\x7b' :: (digits ++ ("\x7d" : Text) ++ behind)).take
            (digits.length + 2) = .scalar '\x7b' :: (digits ++ ("\x7d" : Text)) := by
          rw [List.take_succ_cons]
          exact congrArg _ (List.take_left' (by simp [Text.ofString]))
        intro x member
        dsimp only at member
        rw [whole] at member
        rcases List.mem_cons.1 member with rfl | member
        · decide
        rcases List.mem_append.1 member with inDigits | isClose
        · exact ofHex hex x inDigits
        · rintro rfl
          exact absurd isClose (by decide)
    · split at isNumber
      · exact ofFixed isNumber
      · cases isNumber
  · split
    · dsimp only
      split
      · rename_i feed
        rw [Bool.and_eq_true] at feed
        obtain ⟨u, rfl⟩ := List.isPrefixOf_iff_prefix.1 feed.2
        intro x member
        obtain rfl := List.mem_singleton.1 member
        decide
      · simp
    · simp

theorem escapesBeyond_append {u v : Text} (plain : ∀ x ∈ u, x ≠ .scalar '\\') :
    EscapesBeyond (u ++ v) ↔ EscapesBeyond v := by
  induction u with
  | nil => rfl
  | cons x u ih =>
    obtain ⟨here, behind⟩ := List.forall_mem_cons.1 plain
    rw [← ih behind, List.cons_append]
    constructor
    · intro h
      generalize whole : x :: (u ++ v) = t at h
      cases h with
      | here => exact absurd (List.cons.inj whole).1 here
      | plain _ rest => rwa [(List.cons.inj whole).2]
      | escape => exact absurd (List.cons.inj whole).1 here
    · exact .plain here

/-- An escape is beyond the limit, or one behind it is. -/
theorem escapesBeyond_escape_iff {d : CodePoint} {more : Text} :
    EscapesBeyond (.scalar '\\' :: d :: more) ↔
      (∃ e, (escape d more).2 = .error e) ∨ EscapesBeyond more := by
  constructor
  · intro h
    generalize whole : CodePoint.scalar '\\' :: d :: more = t at h
    cases h with
    | @here digits rest hex beyond =>
      cases whole
      have nonempty : digits ≠ [] := by
        rintro rfl
        exact absurd beyond (by decide)
      have noCode : CodePoint.ofNat? (Text.hexNumber digits) = none := by
        rw [← Option.not_isSome_iff_eq_none, CodePoint.ofNat?_isSome_iff]
        exact Nat.not_lt_of_le beyond
      refine .inl ⟨⟨Text.hexNumber digits⟩, ?_⟩
      change (escape (.scalar 'u') (.scalar '\x7b' :: (digits ++ ("\x7d" : Text) ++ rest))).2 = _
      rw [escape, escapeNumber?, if_pos (CodePoint.is_iff.2 rfl),
        bracedNumber?_of_hex hex nonempty]
      change numbered _ = _
      rw [numbered, noCode]
    | plain noEscape => exact absurd (List.cons.inj whole).1.symm noEscape
    | escape rest =>
      cases whole
      exact .inr rest
  · rintro (⟨e, failed⟩ | behind)
    · obtain ⟨rfl, beyond, length, braced⟩ :=
        escape_eq_error (Prod.ext rfl failed : escape d more = (_, .error e))
      obtain ⟨digits, rest, rfl, hex, -, number⟩ := digits_of_bracedNumber? braced
      exact .here hex (number ▸ beyond)
    · exact .escape behind

/-- Behind an escape with a meaning, a text is as it is behind its letter. -/
theorem escapesBeyond_drop_iff {d : CodePoint} {more meaning : Text} {length : Nat}
    (escaped : escape d more = (length, .ok meaning)) :
    EscapesBeyond (more.drop length) ↔ EscapesBeyond (.scalar '\\' :: d :: more) := by
  have plain := plain_of_escape d more
  rw [escaped] at plain
  rw [escapesBeyond_escape_iff, escaped, ← escapesBeyond_append plain, List.take_append_drop]
  simp

/-- A text can be decoded unless an escape of it is beyond the limit. -/
theorem decodeAfter_isOk_iff (skip : Nat) (t : Text) :
    (∃ text, decodeAfter skip t = .ok text) ↔ ¬ EscapesBeyond (t.drop skip) := by
  have nothing : ¬ EscapesBeyond [] := nofun
  have notOk {e : EscapeBeyondLimit} : ¬ ∃ text : Text, Except.error e = .ok text := by
    rintro ⟨_, ⟨⟩⟩
  have single {c : CodePoint} : ¬ EscapesBeyond [c] := by
    intro h
    generalize whole : [c] = t at h
    cases h with
    | here | escape => cases whole
    | plain _ rest =>
      cases whole
      exact nothing rest
  have plain {c : CodePoint} {rest : Text} (noEscape : ¬ c.is '\\' = true) :
      EscapesBeyond (c :: rest) ↔ EscapesBeyond rest := by
    rw [CodePoint.is_iff] at noEscape
    exact escapesBeyond_append (u := [c]) (by simpa using noEscape)
  fun_induction decodeAfter skip t with
  | case1 skip => simp [nothing]
  | case2 skip c rest ih => exact ih
  | case3 c isEscape => exact iff_of_true ⟨_, rfl⟩ single
  | case4 c isEscape d more skip e failed =>
    obtain rfl := CodePoint.is_iff.1 isEscape
    refine iff_of_false notOk (not_not.2 (escapesBeyond_escape_iff.2 (.inl ⟨e, ?_⟩)))
    rw [failed]
  | case5 c isEscape d more length meaning escaped e failed ih =>
    obtain rfl := CodePoint.is_iff.1 isEscape
    rw [failed, escapesBeyond_drop_iff escaped] at ih
    exact iff_of_false notOk fun none => notOk (ih.2 none)
  | case6 c isEscape d more length meaning escaped tail decoded ih =>
    obtain rfl := CodePoint.is_iff.1 isEscape
    rw [decoded, escapesBeyond_drop_iff escaped] at ih
    exact iff_of_true ⟨_, rfl⟩ (ih.1 ⟨_, rfl⟩)
  | case7 c rest noEscape e failed ih =>
    rw [failed, List.drop_zero, ← plain noEscape] at ih
    exact iff_of_false notOk fun none => notOk (ih.2 none)
  | case8 c rest noEscape tail decoded ih =>
    rw [decoded, List.drop_zero, ← plain noEscape] at ih
    exact iff_of_true ⟨_, rfl⟩ (ih.1 ⟨_, rfl⟩)

/-- A literal has a meaning unless an escape between its marks is beyond the limit. -/
theorem decodeQuoted_isOk_iff (raw : Text) :
    (∃ text, decodeQuoted raw = .ok text) ↔ ¬ EscapesBeyond (raw.drop 1).dropLast :=
  decodeAfter_isOk_iff 0 _

end Literal

end StyleBinding
