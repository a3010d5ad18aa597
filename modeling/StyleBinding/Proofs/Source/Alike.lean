import StyleBinding.Source.Lexeme

/-!
# What a token sees of the text behind it

A lexical function takes as much as it can, so it looks at what follows a token.
Two texts are alike when no token in front of them tells them apart: they agree
up to a place where every token ends. A token that is read in front of one text
is then read in front of the other.
-/

namespace StyleBinding

/-- Whether no token goes on with a code point and no comment starts with it. -/
def CodePoint.isHard (x : CodePoint) : Bool :=
  x.isIn fun y => [')', ']', '}', ',', '(', '[', '{', '\x60'].contains y

/-- Whether a class of code points has none of some characters in it. -/
def CodePoint.omits (p : CodePoint → Bool) (characters : List Char) : Bool :=
  characters.all fun y => !p (.scalar y)

theorem CodePoint.eq_false_of_omits {p : CodePoint → Bool} {characters : List Char}
    (h : omits p characters = true) {y : Char} (member : y ∈ characters) :
    p (.scalar y) = false := by
  simpa using List.all_eq_true.1 h y member

theorem CodePoint.of_isHard {x : CodePoint} (h : x.isHard = true) {p : CodePoint → Bool}
    (omitted : omits p [')', ']', '}', ',', '(', '[', '{', '\x60'] = true) :
    p x = false := by
  obtain y | i := x
  · exact eq_false_of_omits omitted (List.contains_iff_mem.1 h)
  · cases h

/-- Whether a code point behind a full stop belongs to the token that the full stop begins:
to a number or to an ellipsis. -/
def CodePoint.followsPoint (x : CodePoint) : Bool := x.isDigit || x.is '.'

/-- Texts that no token in front of them tells apart. They may differ behind a
code point that no token goes on with, behind the first two code points of an
element, behind the keyword of a declaration, and behind a full stop that is a token.
The end of a text is like a line feed. -/
inductive Text.Alike : Text → Text → Prop
  | nil : Alike [] []
  | feed {t : Text} : Alike [] (.scalar '\n' :: t)
  | hard {x y : CodePoint} {s t : Text} :
    x.isHard = true → y.isHard = true → Alike (x :: s) (y :: t)
  | element {x : CodePoint} {s t : Text} : Alike (.scalar '<' :: x :: s) (.scalar '<' :: x :: t)
  | keyword {s t : Text} : s.head?.any (·.isName) = false → t.head?.any (·.isName) = false →
    Alike (("import" : Text) ++ s) (("import" : Text) ++ t)
  | point {s t : Text} : s.head?.any (·.followsPoint) = false →
    t.head?.any (·.followsPoint) = false → Alike (.scalar '.' :: s) (.scalar '.' :: t)
  | cons {x : CodePoint} {s t : Text} : Alike s t → Alike (x :: s) (x :: t)

/-! ## Runs -/

namespace Text

variable {u v w : Text} {p : CodePoint → Bool}

theorem countWhile_eq_zero_iff (t : Text) : countWhile p t = 0 ↔ t.head?.any p = false := by
  cases t with
  | nil => simp [countWhile]
  | cons x t => simp [countWhile]

theorem head_any_of_countWhile (h : countWhile p (u ++ v) = u.length) :
    v.head?.any p = false := by
  induction u with
  | nil => exact (countWhile_eq_zero_iff v).1 h
  | cons x u ih =>
    simp only [List.cons_append, countWhile, List.length_cons] at h
    split at h
    · exact ih (Nat.succ.inj h)
    · cases h

/-- A run that does not go beyond a text ends there whatever comes behind, unless
it reaches the end and goes on. -/
theorem countWhile_append (le : countWhile p (u ++ v) ≤ u.length)
    (ends : countWhile p (u ++ v) = u.length → w.head?.any p = false) :
    countWhile p (u ++ w) = countWhile p (u ++ v) := by
  induction u with
  | nil =>
    have none : countWhile p v = 0 := Nat.le_zero.1 le
    rw [List.nil_append, List.nil_append, none]
    exact (countWhile_eq_zero_iff w).2 (ends none)
  | cons x u ih =>
    simp only [List.cons_append, countWhile, List.length_cons] at le ends ⊢
    split
    · rename_i goesOn
      rw [if_pos goesOn] at le ends
      rw [ih (by omega) fun whole => ends (by rw [whole])]
    · rfl

end Text

/-! ## What is seen -/

namespace Text.Alike

variable {u v w : Text} {p : CodePoint → Bool}

theorem append (h : Alike v w) (u : Text) : Alike (u ++ v) (u ++ w) := by
  induction u with
  | nil => exact h
  | cons x u ih => exact .cons ih

theorem of_hard {x : CodePoint} {s : Text} (h : Alike (x :: s) w) (isHard : x.isHard = true) :
    ∃ y t, w = y :: t ∧ y.isHard = true := by
  generalize eq : x :: s = v at h
  cases h with
  | nil | feed => cases eq
  | hard hx hy => exact ⟨_, _, rfl, hy⟩
  | element | keyword | point =>
    cases eq
    exact absurd isHard (by decide)
  | cons =>
    cases eq
    exact ⟨_, _, rfl, isHard⟩

/-- What is behind a code point that tokens may go on with is seen too, or the next code
point of it, or that a full stop is a token. -/
inductive SeenBehind (x : CodePoint) (s t : Text) : Prop
  | alike : Alike s t → SeenBehind x s t
  | next : x = .scalar '<' ∨ x = .scalar 'i' → s.head? = t.head? → SeenBehind x s t
  | point : x = .scalar '.' → s.head?.any (·.followsPoint) = false →
    t.head?.any (·.followsPoint) = false → SeenBehind x s t

/-- There are three code points that tokens may go on with and that not all is seen behind. -/
theorem SeenBehind.of_ne {x : CodePoint} {s t : Text} (h : SeenBehind x s t)
    (noElement : x ≠ .scalar '<') (noKeyword : x ≠ .scalar 'i') (noPoint : x ≠ .scalar '.') :
    Alike s t := by
  cases h with
  | alike alike => exact alike
  | next other => exact absurd other (not_or.2 ⟨noElement, noKeyword⟩)
  | point other => exact absurd other noPoint

theorem of_cons {x : CodePoint} {s : Text} (h : Alike (x :: s) w) (notHard : x.isHard = false) :
    ∃ t, w = x :: t ∧ SeenBehind x s t := by
  generalize eq : x :: s = v at h
  cases h with
  | nil | feed => cases eq
  | hard hx hy =>
    cases eq
    rw [notHard] at hx
    cases hx
  | element =>
    cases eq
    exact ⟨_, rfl, .next (.inl rfl) rfl⟩
  | keyword =>
    cases eq
    exact ⟨_, rfl, .next (.inr rfl) rfl⟩
  | point plain plain' =>
    cases eq
    exact ⟨_, rfl, .point rfl plain plain'⟩
  | cons alike =>
    cases eq
    exact ⟨_, rfl, .alike alike⟩

theorem of_cons' {x : CodePoint} {t : Text} (h : Alike v (x :: t)) (notHard : x.isHard = false)
    (noFeed : x ≠ .scalar '\n') :
    ∃ s, v = x :: s ∧ SeenBehind x s t := by
  generalize eq : x :: t = w at h
  cases h with
  | nil => cases eq
  | feed =>
    cases eq
    exact absurd rfl noFeed
  | hard hx hy =>
    cases eq
    rw [notHard] at hy
    cases hy
  | element =>
    cases eq
    exact ⟨_, rfl, .next (.inl rfl) rfl⟩
  | keyword =>
    cases eq
    exact ⟨_, rfl, .next (.inr rfl) rfl⟩
  | point plain plain' =>
    cases eq
    exact ⟨_, rfl, .point rfl plain plain'⟩
  | cons alike =>
    cases eq
    exact ⟨_, rfl, .alike alike⟩

/-- A class of code points that no token ends at is seen alike. -/
theorem head_any (h : Alike v w)
    (hard : CodePoint.omits p [')', ']', '}', ',', '(', '[', '{', '\x60'] = true)
    (feed : p (.scalar '\n') = false) : v.head?.any p = w.head?.any p := by
  cases h with
  | nil | element | keyword | point | cons => rfl
  | feed => exact feed.symm
  | hard hx hy => exact (CodePoint.of_isHard hx hard).trans (CodePoint.of_isHard hy hard).symm

/-- A run that ends in front of the one text ends there in front of the other. -/
theorem countWhile_eq (h : Alike v w)
    (hard : CodePoint.omits p [')', ']', '}', ',', '(', '[', '{', '\x60'] = true)
    (feed : p (.scalar '\n') = false) (le : countWhile p (u ++ v) ≤ u.length) :
    countWhile p (u ++ w) = countWhile p (u ++ v) := by
  refine countWhile_append le fun whole => ?_
  rw [← h.head_any hard feed]
  exact head_any_of_countWhile whole

end Text.Alike

namespace Lexeme

variable {u v w : Text}

open Text

/-! ## Names -/

theorem nameLength_eq_ite (t : Text) :
    nameLength t = if t.head?.any (·.isDecimal) then 0 else countWhile (·.isName) t := by
  cases t <;> rfl

theorem nameLength_eq (h : Alike v w) (le : nameLength (u ++ v) ≤ u.length) :
    nameLength (u ++ w) = nameLength (u ++ v) := by
  have first : (u ++ v).head?.any (·.isDecimal) = (u ++ w).head?.any (·.isDecimal) := by
    cases u with
    | nil => exact h.head_any (by decide) (by decide)
    | cons => rfl
  rw [nameLength_eq_ite] at le
  rw [nameLength_eq_ite, nameLength_eq_ite, first]
  rw [first] at le
  split
  · rfl
  · rename_i noDigit
    rw [if_neg noDigit] at le
    exact h.countWhile_eq (by decide) (by decide) le

/-! ## String literals -/

theorem stringTail?_cons (quote : Char) (c : CodePoint) (rest : Text) :
    stringTail? quote (c :: rest) =
      if c.is quote then some 1
      else if c.is '\n' then none
      else if c.is '\\' then (rest.tail?.bind (stringTail? quote)).map (· + 2)
      else (stringTail? quote rest).map (· + 1) := by
  cases rest <;> rfl

theorem stringTail?_eq {quote : Char} {n : Nat} (h : stringTail? quote (u ++ v) = some n)
    (le : n ≤ u.length) : stringTail? quote (u ++ w) = some n := by
  generalize whole : u ++ v = t at h
  fun_induction stringTail? quote t generalizing u n with
  | case1 => cases h
  | case2 c rest isEnd =>
    cases h
    obtain _ | ⟨x, u⟩ := u
    · cases le
    · obtain ⟨rfl, rfl⟩ := List.cons.inj whole
      rw [List.cons_append, stringTail?_cons, if_pos isEnd]
  | case3 | case4 => cases h
  | case5 c noEnd noFeed isEscape d more ih =>
    obtain ⟨m, hm, rfl⟩ := Option.map_eq_some_iff.1 h
    obtain _ | ⟨x, _ | ⟨y, u⟩⟩ := u
    · simp at le
    · simp at le
    · simp only [List.cons_append, List.cons.injEq] at whole
      obtain ⟨rfl, rfl, rfl⟩ := whole
      simp only [List.length_cons, Nat.add_le_add_iff_right] at le
      simp only [List.cons_append, stringTail?]
      rw [if_neg noEnd, if_neg noFeed, if_pos isEscape, ih (by omega) rfl hm]
      rfl
  | case6 c rest noEnd noFeed noEscape ih =>
    obtain ⟨m, hm, rfl⟩ := Option.map_eq_some_iff.1 h
    obtain _ | ⟨x, u⟩ := u
    · simp at le
    · obtain ⟨rfl, rfl⟩ := List.cons.inj whole
      rw [List.cons_append, stringTail?_cons, if_neg noEnd, if_neg noFeed, if_neg noEscape,
        ih (Nat.le_of_succ_le_succ le) rfl hm]
      rfl

theorem stringLength?_eq {n : Nat} (h : stringLength? (u ++ v) = some n) (le : n ≤ u.length) :
    stringLength? (u ++ w) = some n := by
  obtain _ | ⟨x, u⟩ := u
  · have := stringLength?_bounds h
    simp at le
    omega
  · unfold stringLength? at h
    split at h
    · rename_i rest whole
      obtain ⟨rfl, rfl⟩ := List.cons.inj whole
      obtain ⟨m, hm, rfl⟩ := Option.map_eq_some_iff.1 h
      rw [List.cons_append, stringLength?, stringTail?_eq hm (Nat.le_of_succ_le_succ le)]
      rfl
    · rename_i rest whole
      obtain ⟨rfl, rfl⟩ := List.cons.inj whole
      obtain ⟨m, hm, rfl⟩ := Option.map_eq_some_iff.1 h
      rw [List.cons_append, stringLength?, stringTail?_eq hm (Nat.le_of_succ_le_succ le)]
      rfl
    · cases h

/-! ## Regular expressions -/

theorem regexTail?_cons (inBrackets : Bool) (c : CodePoint) (rest : Text) :
    regexTail? inBrackets (c :: rest) =
      if c.is '\n' then none
      else if c.is '\\' then
        if rest.head?.any (·.is '\n') then none
        else (rest.tail?.bind (regexTail? inBrackets)).map (· + 2)
      else if inBrackets then (regexTail? (!c.is ']') rest).map (· + 1)
      else if c.is '/' then some 1
      else (regexTail? (c.is '[') rest).map (· + 1) := by
  cases rest <;> rfl

theorem regexTail?_eq {inBrackets : Bool} {n : Nat}
    (h : regexTail? inBrackets (u ++ v) = some n) (le : n ≤ u.length) :
    regexTail? inBrackets (u ++ w) = some n := by
  generalize whole : u ++ v = t at h
  fun_induction regexTail? inBrackets t generalizing u n with
  | case1 | case2 | case3 | case4 => cases h
  | case5 inBrackets c noFeed isEscape d more noFeed' ih =>
    obtain ⟨m, hm, rfl⟩ := Option.map_eq_some_iff.1 h
    obtain _ | ⟨x, _ | ⟨y, u⟩⟩ := u
    · simp at le
    · simp at le
    · simp only [List.cons_append, List.cons.injEq] at whole
      obtain ⟨rfl, rfl, rfl⟩ := whole
      simp only [List.length_cons, Nat.add_le_add_iff_right] at le
      simp only [List.cons_append, regexTail?]
      rw [if_neg noFeed, if_pos isEscape, if_neg noFeed', ih (by omega) rfl hm]
      rfl
  | case6 c rest noFeed noEscape ih =>
    obtain ⟨m, hm, rfl⟩ := Option.map_eq_some_iff.1 h
    obtain _ | ⟨x, u⟩ := u
    · simp at le
    · obtain ⟨rfl, rfl⟩ := List.cons.inj whole
      rw [List.cons_append, regexTail?_cons, if_neg noFeed, if_neg noEscape, if_pos rfl,
        ih (Nat.le_of_succ_le_succ le) rfl hm]
      rfl
  | case7 inBrackets c rest noFeed noEscape outside isEnd =>
    cases h
    obtain _ | ⟨x, u⟩ := u
    · cases le
    · obtain ⟨rfl, rfl⟩ := List.cons.inj whole
      rw [List.cons_append, regexTail?_cons, if_neg noFeed, if_neg noEscape, if_neg outside,
        if_pos isEnd]
  | case8 inBrackets c rest noFeed noEscape outside goesOn ih =>
    obtain ⟨m, hm, rfl⟩ := Option.map_eq_some_iff.1 h
    obtain _ | ⟨x, u⟩ := u
    · simp at le
    · obtain ⟨rfl, rfl⟩ := List.cons.inj whole
      rw [List.cons_append, regexTail?_cons, if_neg noFeed, if_neg noEscape, if_neg outside,
        if_neg goesOn, ih (Nat.le_of_succ_le_succ le) rfl hm]
      rfl

theorem regexTail?_pos {inBrackets : Bool} {t : Text} {n : Nat}
    (h : regexTail? inBrackets t = some n) : 0 < n := by
  fun_induction regexTail? inBrackets t with
  | case1 | case2 | case3 | case4 => cases h
  | case7 => cases h; decide
  | case5 | case6 | case8 =>
    obtain ⟨m, _, rfl⟩ := Option.map_eq_some_iff.1 h
    omega

theorem regexLength?_eq {n : Nat} (alike : Alike v w) (h : regexLength? (u ++ v) = some n)
    (le : n ≤ u.length) : regexLength? (u ++ w) = some n := by
  unfold regexLength? at h
  split at h
  · rename_i c rest whole
    split at h
    · cases h
    · rename_i noComment
      obtain ⟨m, hm, rfl⟩ := Option.map_eq_some_iff.1 h
      have pos := regexTail?_pos hm
      obtain _ | ⟨x, _ | ⟨y, u⟩⟩ := u
      · simp at le
      · simp only [List.length_cons, List.length_nil] at le
        omega
      · simp only [List.cons_append, List.cons.injEq] at whole
        obtain ⟨rfl, rfl, rfl⟩ := whole
        dsimp only at le
        simp only [List.length_cons] at le
        rw [← List.cons_append] at hm le
        have body : m ≤ (y :: u).length := by rw [List.length_cons]; omega
        have flags := alike.countWhile_eq (u := (y :: u).drop m) (p := (·.isIn Char.isAlpha))
          (by decide) (by decide) (by
            rw [← List.drop_append_of_le_length body, List.length_drop, List.length_cons]
            omega)
        rw [← List.drop_append_of_le_length body, ← List.drop_append_of_le_length body] at flags
        simp only [List.cons_append, regexLength?] at flags ⊢
        rw [if_neg noComment, ← List.cons_append, regexTail?_eq hm body]
        simp only [Option.map_some, List.cons_append, flags]
  · cases h

/-! ## Numbers -/

/-- The length of a sign at the head of an exponent. -/
def signLength (t : Text) : Nat := if t.head?.any (fun s => s.is '+' || s.is '-') then 1 else 0

theorem exponentLength_cons (c : CodePoint) (rest : Text) :
    exponentLength (c :: rest) =
      if (c.is 'e' || c.is 'E') && (rest.drop (signLength rest)).head?.any (·.isDecimal) then
        signLength rest + 2 + countWhile isSpacedDecimal (rest.drop (signLength rest + 1))
      else 0 := by
  rw [exponentLength.eq_def]
  dsimp only
  by_cases isMark : (c.is 'e' || c.is 'E') = true
  · rw [if_pos isMark, isMark, Bool.true_and]
    cases rest with
    | nil => rfl
    | cons s r =>
      by_cases isSign : (s.is '+' || s.is '-') = true
      · have sign : signLength (s :: r) = 1 := if_pos isSign
        rw [sign]
        dsimp only
        rw [if_pos isSign]
        cases r <;> rfl
      · have sign : signLength (s :: r) = 0 := if_neg isSign
        rw [sign]
        dsimp only
        rw [if_neg isSign]
        rfl
  · rw [if_neg isMark, eq_false_of_ne_true isMark]
    rfl

theorem signLength_alike {s t : Text} (alike : Alike s t) :
    signLength s = signLength t ∧ Alike (s.drop (signLength s)) (t.drop (signLength t)) := by
  have same : signLength s = signLength t := by
    rw [signLength, signLength, alike.head_any (by decide) (by decide)]
  refine ⟨same, ?_⟩
  rw [same, signLength]
  split
  · rename_i isSign
    obtain _ | ⟨x, t⟩ := t
    · cases isSign
    have cases : x = .scalar '+' ∨ x = .scalar '-' := by simpa using isSign
    have notHard : x.isHard = false := by rcases cases with rfl | rfl <;> decide
    have noFeed : x ≠ .scalar '\n' := by rcases cases with rfl | rfl <;> decide
    obtain ⟨s, rfl, behind⟩ := alike.of_cons' notHard noFeed
    rcases cases with rfl | rfl <;> exact behind.of_ne (by decide) (by decide) (by decide)
  · exact alike

theorem exponentLength_eq_zero (alike : Alike v w) (h : exponentLength v = 0) :
    exponentLength w = 0 := by
  obtain _ | ⟨x, t⟩ := w
  · rfl
  rw [exponentLength_cons, if_neg]
  intro both
  rw [Bool.and_eq_true] at both
  obtain ⟨isMark, isDigit⟩ := both
  have cases : x = .scalar 'e' ∨ x = .scalar 'E' := by simpa using isMark
  have notHard : x.isHard = false := by rcases cases with rfl | rfl <;> decide
  have noFeed : x ≠ .scalar '\n' := by rcases cases with rfl | rfl <;> decide
  obtain ⟨s, rfl, behind⟩ := alike.of_cons' notHard noFeed
  have alike : Alike s t := by
    rcases cases with rfl | rfl <;> exact behind.of_ne (by decide) (by decide) (by decide)
  have first := (signLength_alike alike).2.head_any (p := (·.isDecimal)) (by decide) (by decide)
  rw [exponentLength_cons, if_pos (by rw [isMark, first, isDigit]; rfl)] at h
  omega

theorem head_any_append {p : CodePoint → Bool} (nonempty : u ≠ []) :
    (u ++ v).head?.any p = (u ++ w).head?.any p := by
  cases u with
  | nil => exact absurd rfl nonempty
  | cons => rfl

theorem exponentLength_eq (alike : Alike v w) (le : exponentLength (u ++ v) ≤ u.length) :
    exponentLength (u ++ w) = exponentLength (u ++ v) := by
  by_cases none : exponentLength (u ++ v) = 0
  · rw [none]
    exact exponentLength_eq_zero (alike.append u) none
  obtain _ | ⟨c, u⟩ := u
  · exact absurd (Nat.le_zero.1 le) none
  simp only [List.cons_append, exponentLength_cons, List.length_cons] at le none ⊢
  split at le
  · rename_i isMark
    rw [if_pos isMark]
    have short : signLength (u ++ v) ≤ 1 := by
      unfold signLength
      split <;> omega
    have nonempty : u ≠ [] := by
      rintro rfl
      simp only [List.length_nil] at le
      omega
    have sign : signLength (u ++ w) = signLength (u ++ v) := by
      rw [signLength, signLength, head_any_append nonempty]
    have first : (u.drop (signLength (u ++ v))) ≠ [] := by
      intro empty
      have := List.drop_eq_nil_iff.1 empty
      omega
    have mark : ((c.is 'e' || c.is 'E') &&
        ((u ++ w).drop (signLength (u ++ v))).head?.any (·.isDecimal)) = true := by
      rw [← isMark, List.drop_append_of_le_length (by omega),
        List.drop_append_of_le_length (by omega), head_any_append first]
    have digits := alike.countWhile_eq (u := u.drop (signLength (u ++ v) + 1))
      (p := isSpacedDecimal) (by decide) (by decide) (by
        rw [← List.drop_append_of_le_length (by omega), List.length_drop]
        omega)
    rw [sign, if_pos mark, List.drop_append_of_le_length (by omega),
      List.drop_append_of_le_length (by omega), digits]
  · rename_i noMark
    rw [if_neg noMark] at none
    exact absurd rfl none

theorem decimalLength?_cons (c : CodePoint) (rest : Text) :
    decimalLength? (c :: rest) =
      if c.isDecimal then
        if (rest.drop (countWhile isSpacedDecimal rest)).head?.any (·.is '.') then
          some (countWhile isSpacedDecimal rest + 2 + countWhile isSpacedDecimal
            (rest.drop (countWhile isSpacedDecimal rest + 1)))
        else some (countWhile isSpacedDecimal rest + 1)
      else if c.is '.' && rest.head?.any (·.isDecimal) then
        some (countWhile isSpacedDecimal rest.tail + 2)
      else none := by
  rw [decimalLength?.eq_def]
  dsimp only
  split
  · rw [List.drop_succ_cons, ← List.tail_drop]
    generalize rest.drop (countWhile isSpacedDecimal rest) = behind
    split
    · rfl
    · rename_i noPoint
      rw [if_neg]
      intro isPoint
      obtain _ | ⟨x, more⟩ := behind
      · cases isPoint
      · exact noPoint more (by rw [CodePoint.is_iff.1 isPoint])
  · cases c.is '.' with
    | false => rfl
    | true => cases rest <;> rfl

theorem decimalLength?_eq {n : Nat} (alike : Alike v w) (h : decimalLength? (u ++ v) = some n)
    (le : n ≤ u.length) : decimalLength? (u ++ w) = some n := by
  obtain _ | ⟨c, u⟩ := u
  · have := decimalLength?_bounds h
    simp only [List.length_nil] at le
    omega
  simp only [List.cons_append, decimalLength?_cons, List.length_cons] at h le ⊢
  have run {t : Text} (short : countWhile isSpacedDecimal (t ++ v) ≤ t.length) :=
    alike.countWhile_eq (u := t) (p := isSpacedDecimal) (by decide) (by decide) short
  split at h
  · rename_i isDigit
    rw [if_pos isDigit]
    have digits : countWhile isSpacedDecimal (u ++ v) ≤ u.length := by
      split at h <;> cases h <;> omega
    rw [run digits]
    split at h
    · rename_i isPoint
      cases h
      have first : u.drop (countWhile isSpacedDecimal (u ++ v)) ≠ [] := by
        intro empty
        have := List.drop_eq_nil_iff.1 empty
        omega
      have point : ((u ++ w).drop (countWhile isSpacedDecimal (u ++ v))).head?.any (·.is '.') =
          true := by
        rw [← isPoint, List.drop_append_of_le_length digits, List.drop_append_of_le_length digits,
          head_any_append first]
      rw [if_pos point, List.drop_append_of_le_length (by omega),
        List.drop_append_of_le_length (by omega), run]
      rw [← List.drop_append_of_le_length (by omega), List.length_drop]
      omega
    · rename_i noPoint
      cases h
      rw [if_neg]
      rw [List.drop_append_of_le_length digits] at noPoint ⊢
      rw [← (alike.append (u.drop (countWhile isSpacedDecimal (u ++ v)))).head_any (by decide)
        (by decide)]
      exact noPoint
  · rename_i noDigit
    rw [if_neg noDigit]
    split at h
    · rename_i isPoint
      cases h
      obtain _ | ⟨d, u⟩ := u
      · simp only [List.length_nil] at le
        omega
      · have same : countWhile isSpacedDecimal (u ++ w) = countWhile isSpacedDecimal (u ++ v) :=
          run (by simp only [List.cons_append, List.tail_cons, List.length_cons] at le; omega)
        exact (if_pos isPoint).trans (congrArg (fun k => some (k + 2)) same)
    · cases h

/-- Whether a code point says which base the digits behind it are of. -/
def isBase (c : CodePoint) : Bool := c.isIn fun x => "xXoObB".toList.contains x

theorem prefixedLength?_cons (c : CodePoint) (rest : Text) :
    prefixedLength? (c :: rest) =
      if c.is '0' && rest.head?.any isBase &&
          countWhile isSpacedHex rest.tail != 0 then some (countWhile isSpacedHex rest.tail + 2)
      else none := by
  rw [prefixedLength?.eq_def]
  split
  · rename_i base more whole
    obtain ⟨rfl, rfl⟩ := List.cons.inj whole
    rfl
  · rename_i other
    rw [if_neg]
    intro isPrefixed
    obtain _ | ⟨base, more⟩ := rest
    · simp at isPrefixed
    · simp only [Bool.and_eq_true, CodePoint.is_iff] at isPrefixed
      exact other base more (by rw [isPrefixed.1.1])

theorem prefixedLength?_eq (alike : Alike v w) (nonempty : u ≠ [])
    (le : ∀ n, prefixedLength? (u ++ v) = some n → n ≤ u.length) :
    prefixedLength? (u ++ w) = prefixedLength? (u ++ v) := by
  obtain _ | ⟨c, _ | ⟨b, u⟩⟩ := u
  · exact absurd rfl nonempty
  · simp only [List.cons_append, List.nil_append, prefixedLength?_cons, List.length_cons,
      List.length_nil] at le ⊢
    have none : (c.is '0' && v.head?.any isBase &&
        countWhile isSpacedHex v.tail != 0) = false := by
      rw [Bool.eq_false_iff]
      intro isPrefixed
      have := le _ (if_pos isPrefixed)
      omega
    rw [none, if_neg Bool.false_ne_true, if_neg]
    intro isPrefixed
    simp only [Bool.and_eq_true, bne_iff_ne] at isPrefixed
    obtain ⟨⟨zero, base⟩, digits⟩ := isPrefixed
    obtain _ | ⟨x, t⟩ := w
    · cases base
    have notHard : x.isHard = false := by
      rw [Bool.eq_false_iff]
      intro isHard
      have : isBase x = false := CodePoint.of_isHard isHard (by decide)
      rw [List.head?_cons, Option.any_some, this] at base
      cases base
    have noFeed : x ≠ .scalar '\n' := by
      rintro rfl
      cases base
    obtain ⟨s, rfl, behind⟩ := alike.of_cons' notHard noFeed
    have other (y : CodePoint) (noBase : isBase y = false) : x ≠ y := by
      rintro rfl
      rw [List.head?_cons, Option.any_some, noBase] at base
      cases base
    have behind := behind.of_ne (other _ (by decide)) (other _ (by decide)) (other _ (by decide))
    rw [List.head?_cons] at base none
    rw [zero, base, Bool.true_and, Bool.true_and, bne_eq_false_iff_eq, List.tail_cons] at none
    have := behind.countWhile_eq (u := []) (p := isSpacedHex) (by decide) (by decide)
      (Nat.le_of_eq none)
    exact digits (this.trans none)
  · simp only [List.cons_append, prefixedLength?_cons, List.length_cons] at le ⊢
    by_cases marked : (c.is '0' && isBase b) = true
    · have same : countWhile isSpacedHex (u ++ w) = countWhile isSpacedHex (u ++ v) := by
        refine alike.countWhile_eq (by decide) (by decide) ?_
        by_cases none : countWhile isSpacedHex (u ++ v) = 0
        · omega
        · have := le _ (if_pos (by
            rw [List.head?_cons, Option.any_some, marked, List.tail_cons, Bool.true_and,
              bne_iff_ne]
            exact none))
          rw [List.tail_cons] at this
          omega
      rw [List.tail_cons, List.tail_cons, same]
      rfl
    · have none {t : Text} : (c.is '0' && (b :: t).head?.any isBase &&
          countWhile isSpacedHex (b :: t).tail != 0) = false := by
        rw [List.head?_cons, Option.any_some, eq_false_of_ne_true marked, Bool.false_and]
      rw [none, none, if_neg Bool.false_ne_true, if_neg Bool.false_ne_true]

theorem plainNumberLength?_eq {n : Nat} (alike : Alike v w)
    (h : plainNumberLength? (u ++ v) = some n) (le : n ≤ u.length) :
    plainNumberLength? (u ++ w) = some n := by
  have nonempty : u ≠ [] := by
    rintro rfl
    have := plainNumberLength?_bounds h
    simp only [List.length_nil] at le
    omega
  have isPrefixed := prefixedLength?_eq alike nonempty (fun m hm => by
    rw [plainNumberLength?, hm] at h
    cases h
    exact le)
  rw [plainNumberLength?, isPrefixed]
  rw [plainNumberLength?] at h
  split at h
  · exact h
  · obtain ⟨m, hm, rfl⟩ := Option.map_eq_some_iff.1 h
    rw [decimalLength?_eq alike hm (by omega), Option.map_some]
    rw [List.drop_append_of_le_length (by omega)] at le ⊢
    rw [List.drop_append_of_le_length (by omega), exponentLength_eq alike]
    rw [List.length_drop]
    omega

theorem startsWith_n (t : Text) : Text.startsWith t "n" = t.head?.any (·.is 'n') := by
  cases t with
  | nil => rfl
  | cons c t =>
    change (CodePoint.scalar 'n' == c && true) = (c == CodePoint.scalar 'n')
    rw [Bool.and_true, Bool.beq_comm]

theorem numberLength?_eq {n : Nat} (alike : Alike v w) (h : numberLength? (u ++ v) = some n)
    (le : n ≤ u.length) : numberLength? (u ++ w) = some n := by
  obtain ⟨m, hm, rfl⟩ := Option.map_eq_some_iff.1 h
  have short : m ≤ u.length := by
    split at le <;> omega
  rw [numberLength?, plainNumberLength?_eq alike hm short, Option.map_some]
  rw [startsWith_n, startsWith_n, List.drop_append_of_le_length short] at *
  rw [List.drop_append_of_le_length short,
    (alike.append (u.drop m)).head_any (by decide) (by decide)]

/-! ## Punctuators -/

/-- Whether characters are seen alike where two texts begin with them. -/
def isSeen : List Char → Bool
  | [] => true
  | x :: rest =>
    !(CodePoint.scalar x).isHard && x != '\n' && x != 'i' && (x != '<' || rest.length ≤ 1) &&
      (x != '.' || rest.all (· == '.')) && isSeen rest

theorem isPrefix_of_isSeen {q : List Char} (seen : isSeen q = true) (alike : Alike v w)
    (h : q.map CodePoint.scalar <+: w) : q.map CodePoint.scalar <+: v := by
  induction q generalizing v w with
  | nil => exact List.nil_prefix
  | cons x q ih =>
    simp only [isSeen, Bool.and_eq_true, Bool.not_eq_true', bne_iff_ne, Bool.or_eq_true,
      decide_eq_true_eq] at seen
    obtain ⟨⟨⟨⟨⟨notHard, noFeed⟩, noKeyword⟩, short⟩, points⟩, behind⟩ := seen
    obtain ⟨t, rfl⟩ := h
    rw [List.map_cons, List.cons_append] at alike
    obtain ⟨s, rfl, seen⟩ := alike.of_cons' notHard (by simpa using noFeed)
    refine List.prefix_cons_inj _ |>.2 ?_
    cases seen with
    | alike alike => exact ih behind alike (List.prefix_append ..)
    | next other heads =>
      have less : x = '<' := by
        rcases other with same | same
        · exact CodePoint.scalar_inj.1 same
        · exact absurd (CodePoint.scalar_inj.1 same) noKeyword
      have short : q.length ≤ 1 := short.resolve_left fun other => other less
      obtain _ | ⟨y, _ | ⟨z, q⟩⟩ := q
      · exact List.nil_prefix
      · obtain _ | ⟨a, s⟩ := s
        · cases heads
        · cases heads
          exact List.prefix_cons_inj _ |>.2 List.nil_prefix
      · simp at short
    | point isPoint _ plain =>
      have points := points.resolve_left fun other => other (CodePoint.scalar_inj.1 isPoint)
      obtain _ | ⟨y, q⟩ := q
      · exact List.nil_prefix
      · obtain rfl : y = '.' := by simpa using (List.all_eq_true.1 points) y List.mem_cons_self
        exact absurd plain (by simp [CodePoint.followsPoint])

/-- Behind its first character, a punctuator holds nothing that a token in front of
it does not see. -/
theorem isSeen_of_punctuator : ∀ q ∈ punctuators, isSeen (q.toList.drop 1) = true := by decide

theorem isSeen_drop {q : List Char} (h : isSeen q = true) (n : Nat) : isSeen (q.drop n) = true := by
  induction n generalizing q with
  | zero => exact h
  | succ n ih =>
    cases q with
    | nil => exact h
    | cons x q =>
      rw [isSeen, Bool.and_eq_true] at h
      exact ih h.2

theorem punctuator?_eq {p : String} (alike : Alike v w) (h : punctuator? (u ++ v) = some p)
    (length : p.toList.length = u.length) : punctuator? (u ++ w) = some p := by
  have pos := (punctuator?_bounds h).1
  unfold punctuator? at h ⊢
  obtain ⟨here, front, back, whole, others⟩ := List.find?_eq_some_iff_append.1 h
  have prefixes : u = p.toList.map CodePoint.scalar := by
    have isPrefix := List.isPrefixOf_iff_prefix.1 here
    have := List.prefix_of_prefix_length_le isPrefix (List.prefix_append u v) (by
      simp only [Text.ofString, List.length_map]
      omega)
    exact (this.eq_of_length (by simp only [Text.ofString, List.length_map]; omega)).symm
  refine List.find?_eq_some_iff_append.2 ⟨?_, front, back, whole, fun q member => ?_⟩
  · exact List.isPrefixOf_iff_prefix.2 (prefixes ▸ List.prefix_append ..)
  · have earlier := others q member
    rw [Bool.not_eq_true'] at earlier ⊢
    rw [Bool.eq_false_iff] at earlier ⊢
    intro matched
    refine earlier (List.isPrefixOf_iff_prefix.2 ?_)
    have isPrefix := List.isPrefixOf_iff_prefix.1 matched
    rcases Nat.le_total (Text.ofString q).length u.length with short | long
    · exact (List.prefix_of_prefix_length_le isPrefix (List.prefix_append u w) short).trans
        (List.prefix_append u v)
    · obtain ⟨t, rest⟩ := List.prefix_of_prefix_length_le (List.prefix_append u w) isPrefix long
      have ends : t = (q.toList.drop u.length).map CodePoint.scalar := by
        have := congrArg (List.drop u.length) rest
        rwa [List.drop_left, Text.ofString, ← List.map_drop] at this
      have seen : isSeen (q.toList.drop u.length) = true := by
        have isPunctuator : q ∈ punctuators := by
          rw [whole]
          exact List.mem_append_left _ member
        have := isSeen_drop (isSeen_of_punctuator q isPunctuator) (u.length - 1)
        rwa [List.drop_drop, show 1 + (u.length - 1) = u.length by omega] at this
      rw [← rest] at isPrefix ⊢
      refine (List.prefix_append_right_inj u).2 ?_
      rw [ends]
      exact isPrefix_of_isSeen seen alike (ends ▸ (List.prefix_append_right_inj u).1 isPrefix)

end Lexeme

end StyleBinding
