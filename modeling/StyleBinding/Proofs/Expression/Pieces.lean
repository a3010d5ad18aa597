import StyleBinding.Proofs.Expression.Tokens
import StyleBinding.Proofs.Source.Gaps
import StyleBinding.Proofs.Source.Quotes

/-!
# How an expression is cut

An expression is cut into pieces: literals, atoms, brackets and commas, with gaps
between them. `Cut start text pieces` says so of a text that starts at an offset. Atoms
take as much as they can, and where a comment starts no atom does. A text that can be
cut has the tokens that its pieces stand for, and one that has tokens can be cut.
-/

namespace StyleBinding

open Cursor

namespace Shape

/-! ## Templates -/

/-- A template literal: a text with back quotes around it, in which they are escaped. -/
def IsTemplate (raw : Text) : Prop :=
  ∃ body, IsBody ['\x60'] body ∧ raw = .scalar '\x60' :: (body ++ [.scalar '\x60'])

theorem templateTail?_of_isBody {body : Text} (h : IsBody ['\x60'] body) (behind : Text) :
    templateTail? (body ++ .scalar '\x60' :: behind) = some (body.length + 1) := by
  induction h with
  | nil => rw [List.nil_append, templateTail?.eq_def]; rfl
  | @plain x t others _ ih =>
    have noMark := Lexeme.not_is_of_ne (others '\x60' (by simp))
    have noEscape := Lexeme.not_is_of_ne (others '\\' (by simp))
    rw [List.cons_append, templateTail?.eq_def]
    simp only [noMark, noEscape, Bool.false_eq_true, if_false, ih]
    rfl
  | @escape x t _ ih =>
    have step : templateTail? (.scalar '\\' :: x :: (t ++ .scalar '\x60' :: behind)) =
        (templateTail? (t ++ .scalar '\x60' :: behind)).map (· + 2) := rfl
    rw [List.cons_append, List.cons_append, step, ih]
    rfl

theorem isBody_of_templateTail? {t : Text} {n : Nat} (h : templateTail? t = some n) :
    ∃ body behind, t = body ++ .scalar '\x60' :: behind ∧ n = body.length + 1 ∧
      IsBody ['\x60'] body := by
  fun_induction templateTail? t generalizing n with
  | case1 | case3 => cases h
  | case2 c rest isEnd =>
    cases h
    rw [CodePoint.is_iff.1 isEnd]
    exact ⟨[], rest, rfl, rfl, .nil⟩
  | case4 c noEnd isEscape d more ih =>
    obtain ⟨m, found, rfl⟩ := Option.map_eq_some_iff.1 h
    obtain ⟨body, behind, rfl, rfl, isBody⟩ := ih found
    rw [CodePoint.is_iff.1 isEscape]
    exact ⟨_ :: d :: body, behind, rfl, rfl, .escape isBody⟩
  | case5 c rest noEnd noEscape ih =>
    obtain ⟨m, found, rfl⟩ := Option.map_eq_some_iff.1 h
    obtain ⟨body, behind, rfl, rfl, isBody⟩ := ih found
    refine ⟨c :: body, behind, rfl, rfl, .plain ?_ isBody⟩
    simpa only [List.forall_mem_cons, List.not_mem_nil, false_imp_iff, implies_true, and_true,
      ne_eq, ← CodePoint.is_iff] using ⟨noEscape, noEnd⟩

/-! ## Pieces -/

/-- What a piece is that is a term of its own. -/
inductive LeafKind where
  | string
  | template
  | atom
deriving DecidableEq

/-- A text is a literal, or an atom that goes on as far as it can and starts with no
comment, in front of what stands behind it. -/
inductive LeafKind.Matches : LeafKind → Text → Text → Prop
  | string {raw behind : Text} : IsString raw → Matches .string raw behind
  | template {raw behind : Text} : IsTemplate raw → Matches .template raw behind
  | atom {raw behind : Text} : raw ≠ [] → (∀ x ∈ raw, isAtomic x = true) →
    behind.head?.any isAtomic = false →
    (∀ comment rest, raw ++ behind = comment ++ rest → ¬ IsComment comment rest) →
    Matches .atom raw behind

/-- The kind of shape that a leaf is, if its escapes can be decoded. -/
def LeafKind.shapeKind? : LeafKind → Text → Option ShapeKind
  | .string, raw => stringKind? raw
  | .template, raw => templateKind? raw
  | .atom, _ => some .atom

/-- A piece of an expression and where it starts. -/
inductive Piece where
  | leaf (kind : LeafKind) (start : Nat) (raw : Text)
  | opener (b : Bracket) (start : Nat)
  | closer (b : Bracket) (start : Nat)
  | comma (start : Nat)

namespace Piece

/-- Where a piece starts. -/
def start : Piece → Nat
  | leaf _ start _ | opener _ start | closer _ start | comma start => start

/-- The text of a piece. -/
def raw : Piece → Text
  | leaf _ _ raw => raw
  | opener b _ => [.scalar b.opener]
  | closer b _ => [.scalar b.closer]
  | comma _ => [.scalar ',']

/-- Where a piece stops. -/
def stop (p : Piece) : Nat := p.start + p.raw.length

/-- A piece stands in front of a text. -/
def Stands : Piece → Text → Prop
  | leaf kind _ raw, behind => kind.Matches raw behind
  | _, _ => True

/-- The token that a piece is read as. -/
def token? : Piece → Option Token
  | leaf kind start raw =>
    (kind.shapeKind? raw).map fun kind => .term ⟨kind, spanFrom start raw.length⟩
  | opener b start => some (.opener b (spanFrom start 1))
  | closer b start => some (.closer b (spanFrom start 1))
  | comma _ => some .comma

end Piece

/-- A text that starts at an offset is cut into pieces, with gaps in front of them and
one at the end. -/
inductive Cut : Nat → Text → List Piece → Prop
  | finish {start : Nat} {gap : Text} : IsGap gap [] → Cut start gap []
  | piece {start : Nat} {gap rest : Text} {piece : Piece} {pieces : List Piece} :
    IsGap gap (piece.raw ++ rest) → piece.start = start + gap.length → piece.Stands rest →
    Cut piece.stop rest pieces → Cut start (gap ++ (piece.raw ++ rest)) (piece :: pieces)

/-! ## First tokens -/

namespace LeafKind.Matches

variable {kind : LeafKind} {raw behind : Text}

/-- What starts a leaf is no bracket and no comma. -/
theorem starts (h : kind.Matches raw behind) : ∃ x t, raw = x :: t ∧
    Bracket.ofOpener? x = none ∧ Bracket.ofCloser? x = none ∧ x.is ',' = false := by
  cases h with
  | string isString =>
    obtain ⟨x, t, rfl, isQuote⟩ := isString.head
    refine ⟨x, t, rfl, ?_⟩
    simp only [Lexeme.isQuote, Bool.or_eq_true, CodePoint.is_iff] at isQuote
    rcases isQuote with rfl | rfl <;> exact ⟨rfl, rfl, rfl⟩
  | template isTemplate =>
    obtain ⟨body, -, rfl⟩ := isTemplate
    exact ⟨_, _, rfl, rfl, rfl, rfl⟩
  | atom nonempty atomic =>
    obtain ⟨x, t, rfl⟩ := List.exists_cons_of_ne_nil nonempty
    have here := atomic x List.mem_cons_self
    simp only [isAtomic, Bool.not_eq_true', Bool.or_eq_false_iff, Option.isSome_eq_false_iff,
      Option.isNone_iff_eq_none] at here
    exact ⟨x, t, rfl, here.1.2, here.2, here.1.1.2⟩

/-- A leaf is read whole. -/
theorem term?_eq (h : kind.Matches raw behind) {x : CodePoint} {t : Text}
    (whole : raw ++ behind = x :: t) :
    term? x t = (kind.shapeKind? raw).map fun shapeKind => (raw.length, shapeKind) := by
  cases h with
  | string isString =>
    have length := Lexeme.stringLength?_of_isString isString behind
    obtain ⟨y, u, rfl, isQuote⟩ := isString.head
    rw [List.cons_append] at whole
    obtain ⟨rfl, rfl⟩ := List.cons.inj whole
    rw [term?, if_pos isQuote, ← List.cons_append, length]
    simp only [Option.bind_eq_bind, Option.bind_some, List.take_left, shapeKind?]
    cases stringKind? (y :: u) <;> rfl
  | template isTemplate =>
    obtain ⟨body, isBody, rfl⟩ := isTemplate
    rw [List.cons_append] at whole
    obtain ⟨rfl, rfl⟩ := List.cons.inj whole
    have closed : body ++ [.scalar '\x60'] ++ behind = body ++ .scalar '\x60' :: behind :=
      List.append_assoc ..
    have length : (body ++ [CodePoint.scalar '\x60']).length = body.length + 1 :=
      List.length_append
    have tail := templateTail?_of_isBody isBody behind
    rw [← closed] at tail
    rw [term?, if_neg (by decide), if_pos (by decide), tail, List.length_cons, length]
    simp only [Option.bind_eq_bind, Option.bind_some, shapeKind?]
    rw [List.take_succ_cons, List.take_left' length]
    cases templateKind? (.scalar '\x60' :: (body ++ [.scalar '\x60'])) <;> rfl
  | atom nonempty atomic ends =>
    obtain ⟨y, u, rfl⟩ := List.exists_cons_of_ne_nil nonempty
    rw [List.cons_append] at whole
    obtain ⟨rfl, rfl⟩ := List.cons.inj whole
    have here := atomic y List.mem_cons_self
    have run : Text.countWhile isAtomic (u ++ behind) = u.length := by
      have stops : behind.takeWhile isAtomic = [] := by
        cases behind with
        | nil => rfl
        | cons z v => exact List.takeWhile_cons_of_neg (by simpa using ends)
      rw [Text.countWhile_eq, List.takeWhile_append_of_pos (List.forall_mem_cons.1 atomic).2,
        stops, List.append_nil]
    have noQuote : Lexeme.isQuote y = false ∧ y.is '\x60' = false := by
      simp only [isAtomic, Bool.not_eq_true', Bool.or_eq_false_iff] at here
      exact ⟨here.1.1.1.1.2, here.1.1.1.2⟩
    rw [term?, noQuote.1, noQuote.2, here, run]
    rfl

/-- A leaf is read as the first token. -/
theorem firstToken?_eq (h : kind.Matches raw behind) {x : CodePoint} {t : Text}
    (whole : raw ++ behind = x :: t) (start : Nat) :
    firstToken? start x t = (kind.shapeKind? raw).map fun shapeKind =>
      (raw.length, .term ⟨shapeKind, spanFrom start raw.length⟩) := by
  obtain ⟨y, u, first, noOpener, noCloser, noComma⟩ := h.starts
  obtain rfl : y = x := by
    rw [first] at whole
    exact (List.cons.inj whole).1
  rw [firstToken?, noOpener, noCloser, noComma, h.term?_eq whole, if_neg Bool.false_ne_true]
  exact Option.map_map ..

/-- No gap begins where a leaf does. -/
theorem endsGap (h : kind.Matches raw behind) : EndsGap (raw ++ behind) := by
  cases h with
  | string isString =>
    obtain ⟨y, u, rfl, isQuote⟩ := isString.head
    refine endsGap_of_startsToken ?_
    simp only [Lexeme.isQuote, Bool.or_eq_true, CodePoint.is_iff] at isQuote
    rcases isQuote with rfl | rfl <;> rfl
  | template isTemplate =>
    obtain ⟨body, -, rfl⟩ := isTemplate
    exact endsGap_of_startsToken rfl
  | atom nonempty atomic _ noComment =>
    refine ⟨?_, ?_⟩
    · obtain ⟨y, u, rfl⟩ := List.exists_cons_of_ne_nil nonempty
      rw [List.cons_append, List.head?_cons, Option.any_some]
      by_contra separates
      have blank := CodePoint.isBlank_of_isSeparator (Bool.not_eq_false _ ▸ separates)
      have := atomic y List.mem_cons_self
      rw [isAtomic, blank] at this
      cases this
    · by_contra isComment
      obtain ⟨n, hn⟩ := Option.ne_none_iff_exists'.1 isComment
      exact noComment _ _ (List.take_append_drop n _).symm (.of_commentLength? hn)

/-- What is read as a term of its own is a leaf. -/
theorem of_term? {x : CodePoint} {t : Text} {n : Nat} {k : ShapeKind}
    (h : term? x t = some (n, k)) (noComment : commentLength? (x :: t) = none) :
    ∃ kind : LeafKind, kind.Matches ((x :: t).take n) ((x :: t).drop n) := by
  rw [term?] at h
  split at h
  · obtain ⟨m, isString, h⟩ := Option.bind_eq_some_iff.1 h
    obtain ⟨_, _, same⟩ := Option.bind_eq_some_iff.1 h
    cases same
    exact ⟨.string, .string (Lexeme.isString_of_stringLength? isString)⟩
  split at h
  · rename_i mark
    obtain ⟨m, tail, h⟩ := Option.bind_eq_some_iff.1 h
    obtain ⟨_, _, same⟩ := Option.bind_eq_some_iff.1 h
    cases same
    obtain ⟨body, behind, rfl, rfl, isBody⟩ := isBody_of_templateTail? tail
    refine ⟨.template, .template ⟨body, isBody, ?_⟩⟩
    rw [CodePoint.is_iff.1 mark, List.take_succ_cons, List.take_length_add_append]
    rfl
  split at h
  · rename_i atomic
    cases h
    have run : Text.countWhile isAtomic t + 1 = ((x :: t).takeWhile isAtomic).length := by
      rw [List.takeWhile_cons_of_pos atomic, List.length_cons, Text.countWhile_eq]
    have front : (x :: t).take (Text.countWhile isAtomic t + 1) = (x :: t).takeWhile isAtomic := by
      rw [run]
      exact (List.prefix_iff_eq_take.1 (List.takeWhile_prefix _)).symm
    refine ⟨.atom, .atom ?_ ?_ ?_ ?_⟩
    · exact List.cons_ne_nil _ _
    · rw [front]
      exact fun y member => List.mem_takeWhile_imp member
    · refine Text.head_any_of_countWhile (u := (x :: t).take (Text.countWhile isAtomic t + 1)) ?_
      rw [List.take_append_drop, Text.countWhile, if_pos atomic, List.length_take_of_le]
      exact Nat.succ_le_succ (Text.countWhile_le ..)
    · intro comment rest same isComment
      rw [List.take_append_drop] at same
      rw [same, isComment.commentLength?_eq] at noComment
      cases noComment
  · cases h

end LeafKind.Matches

namespace Piece

variable {p : Piece} {behind : Text}

/-- A piece is read as the first token. -/
theorem firstToken?_eq (h : p.Stands behind) {x : CodePoint} {t : Text}
    (whole : p.raw ++ behind = x :: t) :
    firstToken? p.start x t = p.token?.map fun token => (p.raw.length, token) := by
  cases p with
  | leaf kind start raw =>
    rw [LeafKind.Matches.firstToken?_eq h whole, token?, Option.map_map]
    rfl
  | opener b start =>
    cases whole
    exact firstToken?_opener start b behind
  | closer b start =>
    cases whole
    exact firstToken?_closer start b behind
  | comma start =>
    cases whole
    rfl

/-- No gap begins where a piece does. -/
theorem endsGap (h : p.Stands behind) : EndsGap (p.raw ++ behind) := by
  cases p with
  | leaf => exact LeafKind.Matches.endsGap h
  | opener b => cases b <;> exact endsGap_of_startsToken rfl
  | closer b => cases b <;> exact endsGap_of_startsToken rfl
  | comma => exact endsGap_of_startsToken rfl

theorem raw_ne_nil (h : p.Stands behind) : p.raw ≠ [] := by
  cases p with
  | leaf =>
    obtain ⟨x, t, first, -⟩ := LeafKind.Matches.starts h
    exact List.ne_nil_of_mem (first ▸ List.mem_cons_self)
  | opener | closer | comma => exact List.cons_ne_nil _ _

/-- What is read as a token is a piece. -/
theorem of_firstToken? {start : Nat} {x : CodePoint} {t : Text} {r : Nat × Token}
    (h : firstToken? start x t = some r) (noComment : commentLength? (x :: t) = none) :
    ∃ p : Piece, ∃ behind, p.start = start ∧ x :: t = p.raw ++ behind ∧ p.Stands behind := by
  rw [firstToken?] at h
  split at h
  · rename_i b isOpener
    refine ⟨.opener b start, t, rfl, ?_, trivial⟩
    rw [Bracket.eq_of_ofOpener? isOpener]
    rfl
  · rename_i b _ isCloser
    refine ⟨.closer b start, t, rfl, ?_, trivial⟩
    rw [Bracket.eq_of_ofCloser? isCloser]
    rfl
  split at h
  · rename_i isComma
    refine ⟨.comma start, t, rfl, ?_, trivial⟩
    rw [CodePoint.is_iff.1 isComma]
    rfl
  · obtain ⟨⟨n, k⟩, isTerm, -⟩ := Option.map_eq_some_iff.1 h
    obtain ⟨kind, isLeaf⟩ := LeafKind.Matches.of_term? isTerm noComment
    exact ⟨.leaf kind start _, _, rfl, (List.take_append_drop n _).symm, isLeaf⟩

end Piece

/-! ## Tokens -/

/-- A text has the tokens that its pieces stand for. -/
theorem Cut.tokens?_eq {start : Nat} {text : Text} {pieces : List Piece}
    (h : Cut start text pieces) : tokens? ⟨start, text⟩ = pieces.mapM Piece.token? := by
  induction h with
  | @finish start gap isGap =>
    have skipped := isGap.skipSeparators_eq endsGap_nil
      (c := ⟨start, gap⟩) (List.append_nil gap).symm
    refine tokens?_of_end skipped ?_
    rw [advance, List.drop_length]
  | @piece start gap rest piece pieces isGap place stands _ ih =>
    obtain ⟨x, t, whole⟩ : ∃ x t, piece.raw ++ rest = x :: t := by
      obtain ⟨x, u, first⟩ := List.exists_cons_of_ne_nil (Piece.raw_ne_nil stands)
      exact ⟨x, u ++ rest, by rw [first]; rfl⟩
    have skipped := isGap.skipSeparators_eq (Piece.endsGap stands)
      (c := ⟨start, gap ++ (piece.raw ++ rest)⟩) rfl
    have here : (⟨start, gap ++ (piece.raw ++ rest)⟩ : Cursor).advance gap.length =
        ⟨piece.start, piece.raw ++ rest⟩ := by
      rw [advance, List.drop_left, place]
    rw [here] at skipped
    have behind : (⟨piece.start, piece.raw ++ rest⟩ : Cursor).advance piece.raw.length =
        ⟨piece.stop, rest⟩ := by
      rw [advance, List.drop_left, Piece.stop]
    rw [tokens?_of_cons skipped whole, Piece.firstToken?_eq stands whole, List.mapM_cons]
    cases piece.token? with
    | none => rfl
    | some token =>
      rw [Option.map_some, Option.bind_some]
      dsimp only
      rw [behind, ih]
      cases pieces.mapM Piece.token? <;> rfl

/-- A text that has tokens can be cut. -/
theorem exists_cut {c : Cursor} {tokens : List Token} (h : tokens? c = some tokens) :
    ∃ pieces, Cut c.offset c.rest pieces := by
  obtain ⟨gap, place, rest, isGap, noSeparator, noComment⟩ := IsGap.of_skipSeparators c
  cases hr : c.skipSeparators.1.rest with
  | nil =>
    rw [hr] at rest isGap
    rw [rest, List.append_nil]
    exact ⟨[], .finish isGap⟩
  | cons x t =>
    rw [hr] at rest isGap noComment
    rw [tokens?_of_cons rfl hr] at h
    obtain ⟨⟨n, token⟩, first, h⟩ := Option.bind_eq_some_iff.1 h
    obtain ⟨more, found, rfl⟩ := Option.map_eq_some_iff.1 h
    obtain ⟨p, behind, start, whole, stands⟩ := Piece.of_firstToken? first noComment
    have length : p.raw.length = n := by
      rw [← start, Piece.firstToken?_eq stands whole.symm] at first
      obtain ⟨_, _, same⟩ := Option.map_eq_some_iff.1 first
      exact congrArg Prod.fst same
    have place' : p.start = c.offset + gap.length := by rw [start, place, advance]
    have next : c.skipSeparators.1.advance n = ⟨p.stop, behind⟩ := by
      rw [advance, hr, whole, ← length, List.drop_left, ← start, Piece.stop]
    have shorter : behind.length < c.rest.length := by
      have := List.length_pos_iff.2 (Piece.raw_ne_nil stands)
      rw [rest, whole, List.length_append, List.length_append]
      omega
    rw [next] at found
    obtain ⟨pieces, cut⟩ := exists_cut found
    rw [whole] at rest isGap
    rw [rest]
    exact ⟨p :: pieces, .piece isGap place' stands cut⟩
termination_by c.rest.length

end Shape

end StyleBinding
