import StyleBinding.Document.Lead
import StyleBinding.Proofs.Expression.Closing
import StyleBinding.Proofs.Reading.Declarations
import StyleBinding.Proofs.Source.Separators

/-!
# The tokens of an expression, one by one

What the first token of an expression is, by what stands behind its separators,
and what it does to the brackets that are open. An atom may be cut anywhere: what
is left of it is an atom, unless a comment begins there. `isPlain` says of a text
that none of its atoms hides a comment, a regular expression or an element, and
no template holds code.
-/

namespace StyleBinding

open Cursor

namespace Shape

/-- The span of a number of code points behind an offset. -/
def spanFrom (start length : Nat) : Span := ⟨start, start + length, Nat.le_add_right ..⟩

/-- The first token of a text and its length, where the text starts at an offset and
with no separator. -/
def firstToken? (start : Nat) (x : CodePoint) (t : Text) : Option (Nat × Token) :=
  match Bracket.ofOpener? x, Bracket.ofCloser? x with
  | some b, _ => some (1, .opener b (spanFrom start 1))
  | none, some b => some (1, .closer b (spanFrom start 1))
  | none, none =>
    if x.is ',' then some (1, .comma)
    else (term? x t).map fun (n, kind) => (n, .term ⟨kind, spanFrom start n⟩)

section

variable {c d : Cursor} {x : CodePoint} {t : Text}

theorem tokens?_of_end (hd : c.skipSeparators.1 = d) (hr : d.rest = []) : tokens? c = some [] := by
  subst hd
  rw [tokens?]
  split
  rename_i same
  rw [same] at hr
  split
  · rfl
  · rename_i hr'
    rw [hr] at hr'
    cases hr'

/-- The first token comes in front of those that are read behind it. -/
theorem tokens?_of_cons (hd : c.skipSeparators.1 = d) (hr : d.rest = x :: t) :
    tokens? c = (firstToken? d.offset x t).bind fun (n, token) =>
      (tokens? (d.advance n)).map (token :: ·) := by
  subst hd
  rw [tokens?, firstToken?]
  split
  rename_i same
  rw [same] at hr ⊢
  split
  · rename_i hr'
    rw [hr] at hr'
    cases hr'
  rename_i hr'
  obtain ⟨rfl, rfl⟩ := List.cons.inj (hr.symm.trans hr')
  cases isOpener : Bracket.ofOpener? x with
  | some b => rfl
  | none =>
    cases isCloser : Bracket.ofCloser? x with
    | some b => rfl
    | none =>
      dsimp only
      split
      · rfl
      · split
        · rename_i noTerm
          rw [noTerm]
          rfl
        · rename_i isTerm
          simp only [isTerm, Option.map_some, Option.bind_some]
          rfl

end

/-! ## What a code point begins -/

theorem firstToken?_opener (start : Nat) (b : Bracket) (t : Text) :
    firstToken? start (.scalar b.opener) t = some (1, .opener b (spanFrom start 1)) := by
  cases b <;> rfl

/-- Only an opening mark is read as one. -/
theorem eq_of_firstToken?_opener {start n : Nat} {x : CodePoint} {t : Text} {b : Bracket}
    {mark : Span} (h : firstToken? start x t = some (n, .opener b mark)) :
    x = .scalar b.opener := by
  rw [firstToken?] at h
  split at h
  · rename_i isOpener
    cases h
    exact Bracket.eq_of_ofOpener? isOpener
  · cases h
  split at h
  · cases h
  · obtain ⟨r, _, same⟩ := Option.map_eq_some_iff.1 h
    cases same

theorem firstToken?_closer (start : Nat) (b : Bracket) (t : Text) :
    firstToken? start (.scalar b.closer) t = some (1, .closer b (spanFrom start 1)) := by
  cases b <;> rfl

theorem firstToken?_atom {start : Nat} {x : CodePoint} {t : Text} (atomic : isAtomic x = true) :
    firstToken? start x t = some (Text.countWhile isAtomic (x :: t),
      .term ⟨.atom, spanFrom start (Text.countWhile isAtomic (x :: t))⟩) := by
  have given := atomic
  simp only [isAtomic, Bool.not_eq_true', Bool.or_eq_false_iff, Option.isSome_eq_false_iff,
    Option.isNone_iff_eq_none] at given
  obtain ⟨⟨⟨⟨⟨_, noQuote⟩, noTemplate⟩, noComma⟩, noOpener⟩, noCloser⟩ := given
  rw [firstToken?, noOpener, noCloser, Text.countWhile, if_pos atomic]
  simp only [noComma, term?, noQuote, noTemplate, atomic, if_pos, if_neg Bool.false_ne_true,
    Option.map_some]

/-- No token starts with a blank. -/
theorem not_isBlank_of_firstToken? {start : Nat} {x : CodePoint} {t : Text} {r : Nat × Token}
    (h : firstToken? start x t = some r) : x.isBlank = false := by
  rw [firstToken?] at h
  split at h
  · rename_i b isOpener
    rw [Bracket.eq_of_ofOpener? isOpener]
    cases b <;> decide
  · rename_i b _ isCloser
    rw [Bracket.eq_of_ofCloser? isCloser]
    cases b <;> decide
  split at h
  · rename_i isComma
    rw [CodePoint.is_iff.1 isComma]
    decide
  obtain ⟨_, isTerm, _⟩ := Option.map_eq_some_iff.1 h
  rw [term?] at isTerm
  split at isTerm
  · rename_i quote
    rw [Lexeme.isQuote, Bool.or_eq_true, CodePoint.is_iff, CodePoint.is_iff] at quote
    rcases quote with rfl | rfl <;> decide
  split at isTerm
  · rename_i mark
    rw [CodePoint.is_iff.1 mark]
    decide
  split at isTerm
  · rename_i atomic
    simp only [isAtomic, Bool.not_eq_true', Bool.or_eq_false_iff] at atomic
    exact atomic.1.1.1.1.1
  · cases isTerm

theorem firstToken?_string {start n : Nat} {x : CodePoint} {t : Text} {r : Nat × Token}
    (isString : Lexeme.stringLength? (x :: t) = some n) (h : firstToken? start x t = some r) :
    ∃ shape, r = (n, .term shape) := by
  have quote : x = .scalar '\'' ∨ x = .scalar '"' := by
    unfold Lexeme.stringLength? at isString
    split at isString
    · rename_i same
      exact .inl (List.cons.inj same).1
    · rename_i same
      exact .inr (List.cons.inj same).1
    · cases isString
  have whole : firstToken? start x t =
      (term? x t).map fun (n, kind) => (n, .term ⟨kind, spanFrom start n⟩) := by
    rcases quote with rfl | rfl <;> rfl
  have isQuote : Lexeme.isQuote x = true := by
    rcases quote with rfl | rfl <;> rfl
  rw [whole, term?, if_pos isQuote, isString] at h
  obtain ⟨_, isTerm, rfl⟩ := Option.map_eq_some_iff.1 h
  simp only [Option.bind_eq_bind, Option.bind_some, Option.bind_eq_some_iff, Option.pure_def,
    Option.some.injEq] at isTerm
  obtain ⟨kind, _, rfl⟩ := isTerm
  exact ⟨_, rfl⟩

/-- A template ends at its closing mark, and is one with code in it or without. -/
theorem firstToken?_template {start : Nat} {t : Text} {r : Nat × Token}
    (h : firstToken? start (.scalar '\x60') t = some r) :
    ∃ n kind, templateTail? t = some n ∧ templateKind? (.scalar '\x60' :: t.take n) = some kind ∧
      r = (n + 1, .term ⟨kind, spanFrom start (n + 1)⟩) := by
  change (term? _ t).map _ = _ at h
  obtain ⟨_, isTerm, rfl⟩ := Option.map_eq_some_iff.1 h
  change (templateTail? t).bind _ = _ at isTerm
  obtain ⟨n, tail, isTerm⟩ := Option.bind_eq_some_iff.1 isTerm
  obtain ⟨kind, isKind, same⟩ := Option.bind_eq_some_iff.1 isTerm
  cases same
  exact ⟨n, kind, tail, isKind, rfl⟩

/-! ## Plain expressions -/

/-- Whether a comment or a regular expression may begin with a slash in front of a
text: an asterisk comes next, or another slash in the same line. -/
def isMarkedBySlash (t : Text) : Bool :=
  t.head?.any (·.is '*') || (Text.before '\n' t).any (·.is '/')

/-- Whether a number of code points at the head of a text can only be a part of an
atom. No comment or regular expression begins there, and no less-than sign stands in
front of a name or a greater-than sign. -/
def isPlainAtom : Nat → Text → Bool
  | 0, _ | _, [] => true
  | n + 1, x :: t =>
    !(x.is '/' && isMarkedBySlash t || x.is '<' && Lead.startsElement t) && isPlainAtom n t

/-- Whether a token of a text is no atom that could be cut in another way, and no
template with code in it. -/
def Token.isPlain (text : Text) : Token → Bool
  | .term ⟨.atom, span⟩ => isPlainAtom span.length (text.drop span.start)
  | .term ⟨.template none, _⟩ => false
  | _ => true

/-- Whether a text is plain from a place on: it has tokens there, all of them plain. -/
def arePlain (text : Text) (c : Cursor) : Bool :=
  (tokens? c).any fun tokens => tokens.all (·.isPlain text)

/-- Whether a text has tokens, all of them plain. -/
def isPlain (text : Text) : Bool := arePlain text (.ofSource text)

/-- Where the bracket starts that leaves none of the given brackets open, when it
is the last token from a place on. -/
def closingFrom? (opened : List Bracket) (c : Cursor) : Option Nat :=
  (tokens? c).bind (closing? opened)

section

variable {text : Text} {c d : Cursor} {x : CodePoint} {t : Text}

theorem arePlain_eq {token : Token} {e : Cursor} (h : tokens? c = (tokens? e).map (token :: ·)) :
    arePlain text c = (token.isPlain text && arePlain text e) := by
  rw [arePlain, arePlain, h]
  cases tokens? e with
  | none => simp
  | some tokens => simp

theorem closingFrom?_eq {token : Token} {e : Cursor}
    (h : tokens? c = (tokens? e).map (token :: ·)) (opened : List Bracket) :
    closingFrom? opened c = (tokens? e).bind fun rest => closing? opened (token :: rest) := by
  rw [closingFrom?, h, Option.bind_map]
  rfl

/-- The first token of a plain text, and what it leaves to be read. -/
theorem of_arePlain (plain : arePlain text c = true) (hd : c.skipSeparators.1 = d)
    (hr : d.rest = x :: t) : ∃ n token, firstToken? d.offset x t = some (n, token) ∧
      token.isPlain text = true ∧ arePlain text (d.advance n) = true ∧
      tokens? c = (tokens? (d.advance n)).map (token :: ·) := by
  have whole := tokens?_of_cons hd hr
  cases first : firstToken? d.offset x t with
  | none =>
    rw [first] at whole
    rw [arePlain, whole] at plain
    cases plain
  | some r =>
    obtain ⟨n, token⟩ := r
    rw [first, Option.bind_some] at whole
    rw [arePlain_eq whole, Bool.and_eq_true] at plain
    exact ⟨n, token, rfl, plain.1, plain.2, whole⟩

end

/-! ## Parts of atoms -/

theorem isPlainAtom_succ {n : Nat} {x : CodePoint} {t : Text}
    (h : isPlainAtom (n + 1) (x :: t) = true) : (x.is '/' && isMarkedBySlash t) = false ∧
      (x.is '<' && Lead.startsElement t) = false ∧ isPlainAtom n t = true := by
  rw [isPlainAtom, Bool.and_eq_true, Bool.not_eq_true', Bool.or_eq_false_iff] at h
  exact ⟨h.1.1, h.1.2, h.2⟩

theorem isPlainAtom_drop {n : Nat} {t : Text} (h : isPlainAtom n t = true) (m : Nat) :
    isPlainAtom (n - m) (t.drop m) = true := by
  induction m generalizing n t with
  | zero => exact h
  | succ m ih =>
    obtain _ | n := n
    · rw [Nat.zero_sub, isPlainAtom]
    obtain _ | ⟨x, t⟩ := t
    · rw [List.drop_nil]
      cases n + 1 - (m + 1) <;> rfl
    · rw [Nat.add_sub_add_right]
      exact ih (isPlainAtom_succ h).2.2

theorem le_countWhile {p : CodePoint → Bool} {t : Text} {n : Nat} (le : n ≤ t.length)
    (all : (t.take n).all p = true) : n ≤ Text.countWhile p t := by
  induction t generalizing n with
  | nil => exact le
  | cons x t ih =>
    obtain _ | n := n
    · exact Nat.zero_le _
    rw [List.take_succ_cons, List.all_cons, Bool.and_eq_true] at all
    rw [Text.countWhile, if_pos all.1]
    exact Nat.succ_le_succ (ih (Nat.le_of_succ_le_succ le) all.2)

theorem head_of_countWhile {p : CodePoint → Bool} {t u : Text} {x : CodePoint}
    (pos : 0 < Text.countWhile p t) (ht : t = x :: u) : p x = true := by
  rw [ht, Text.countWhile] at pos
  split at pos
  · assumption
  · cases pos

theorem countWhile_drop {p : CodePoint → Bool} {t : Text} {n : Nat}
    (le : n ≤ Text.countWhile p t) : Text.countWhile p (t.drop n) = Text.countWhile p t - n := by
  induction n generalizing t with
  | zero => rfl
  | succ n ih =>
    cases t with
    | nil => cases le
    | cons x t =>
      rw [Text.countWhile] at le ⊢
      split at le
      · rename_i inside
        rw [if_pos inside, List.drop_succ_cons, ih (Nat.le_of_succ_le_succ le)]
        omega
      · cases le

section

variable {text : Text} {c d : Cursor} {x : CodePoint} {t : Text}

theorem isPlain_atom (on : d.On text) (n : Nat) :
    Token.isPlain text (.term ⟨.atom, spanFrom d.offset n⟩) = isPlainAtom n d.rest := by
  have rest := congrArg Cursor.rest on
  simp only [place] at rest
  rw [Token.isPlain, spanFrom, Span.length, ← rest, Nat.add_sub_cancel_left]

/-- A comment begins with a slash that something marks. -/
theorem isMarkedBySlash_of_comment {n : Nat} (h : commentLength? (x :: t) = some n) :
    (x.is '/' && isMarkedBySlash t) = true := by
  unfold commentLength? at h
  split at h
  · rename_i opens
    obtain ⟨u, same⟩ := List.isPrefixOf_iff_prefix.1 opens
    cases same
    rfl
  split at h
  · rename_i opens
    obtain ⟨u, same⟩ := List.isPrefixOf_iff_prefix.1 opens
    cases same
    rfl
  · cases h

/-- No separator and no comment stands where a plain atom does. -/
theorem skipSeparators_of_atom (hr : d.rest = x :: t) (atomic : isAtomic x = true)
    (noSlash : (x.is '/' && isMarkedBySlash t) = false) : d.skipSeparators.1 = d := by
  refine skipSeparators_of_cons hr ?_ ?_
  · by_contra separates
    have blank := CodePoint.isBlank_of_isSeparator (Bool.not_eq_false _ ▸ separates)
    simp [isAtomic, blank] at atomic
  · by_contra isComment
    obtain ⟨n, hn⟩ := Option.ne_none_iff_exists'.1 isComment
    rw [hr] at hn
    exact Bool.noConfusion (noSlash.symm.trans (isMarkedBySlash_of_comment hn))

/-- A plain atom at a place, and what is left to be read behind it. -/
theorem of_arePlain_atom (plain : arePlain text d = true) (on : d.On text)
    (hd : d.skipSeparators.1 = d) (hr : d.rest = x :: t) (atomic : isAtomic x = true) :
    isPlainAtom (Text.countWhile isAtomic d.rest) d.rest = true ∧
      arePlain text (d.advance (Text.countWhile isAtomic d.rest)) = true ∧
      ∀ opened, closingFrom? opened d =
        closingFrom? opened (d.advance (Text.countWhile isAtomic d.rest)) := by
  obtain ⟨n, token, first, isPlain, plain, tokens⟩ := of_arePlain plain hd hr
  rw [firstToken?_atom atomic, ← hr] at first
  cases first
  refine ⟨?_, plain, fun opened => closingFrom?_eq tokens opened⟩
  rwa [isPlain_atom on] at isPlain

/-- An atom may be cut: behind a part of it the text is plain as well, and has the
same brackets. -/
theorem arePlain_advance {m : Nat} (plain : arePlain text d = true) (on : d.On text)
    (hd : d.skipSeparators.1 = d) (pos : 0 < m) (le : m ≤ d.rest.length)
    (atoms : (d.rest.take m).all isAtomic = true) : arePlain text (d.advance m) = true ∧
      ∀ opened, closingFrom? opened d = closingFrom? opened (d.advance m) := by
  have inAtom := le_countWhile le atoms
  have left := countWhile_drop inAtom
  obtain ⟨x, t, hr⟩ := List.exists_cons_of_length_pos (Nat.lt_of_lt_of_le pos le)
  have atomic := head_of_countWhile (Nat.lt_of_lt_of_le pos inAtom) hr
  obtain ⟨plainAtom, behind, closing⟩ := of_arePlain_atom plain on hd hr atomic
  generalize Text.countWhile isAtomic d.rest = n at inAtom left plainAtom behind closing
  rcases Nat.eq_or_lt_of_le inAtom with rfl | lt
  · exact ⟨behind, closing⟩
  -- The rest of the atom stands at the place, and the same tokens behind it.
  have plainRest := isPlainAtom_drop plainAtom m
  change Text.countWhile isAtomic (d.advance m).rest = _ at left
  change isPlainAtom _ (d.advance m).rest = true at plainRest
  have same : (d.advance m).advance (n - m) = d.advance n := by
    rw [advance_advance]
    congr 1
    omega
  obtain ⟨y, u, hu⟩ := List.exists_cons_of_length_pos (l := (d.advance m).rest)
    (Nat.lt_of_lt_of_le (left ▸ Nat.sub_pos_of_lt lt) (Text.countWhile_le isAtomic _))
  have atomicRest := head_of_countWhile (left ▸ Nat.sub_pos_of_lt lt) hu
  have noSlash : (y.is '/' && isMarkedBySlash u) = false := by
    obtain ⟨k, hk⟩ : ∃ k, n - m = k + 1 := ⟨n - m - 1, by omega⟩
    rw [hu, hk] at plainRest
    exact (isPlainAtom_succ plainRest).1
  have whole := tokens?_of_cons (skipSeparators_of_atom hu atomicRest noSlash) hu
  rw [firstToken?_atom atomicRest, ← hu, left] at whole
  change tokens? _ = Option.map _ (tokens? ((d.advance m).advance (n - m))) at whole
  rw [same] at whole
  refine ⟨?_, fun opened => ?_⟩
  · rw [arePlain_eq whole, isPlain_atom (on.advance m), plainRest, behind]
    rfl
  · exact (closing opened).trans (closingFrom?_eq whole opened).symm

end

end Shape

end StyleBinding
