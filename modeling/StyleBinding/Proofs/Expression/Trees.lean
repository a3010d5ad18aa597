import Mathlib.Data.List.Forall2
import StyleBinding.Proofs.Expression.Closing
import StyleBinding.Proofs.Expression.Pieces

/-!
# Expressions as trees

The pieces of an expression are those of trees: leaves, commas, and pairs of brackets
of one kind with trees between them. `ReadsAs text forest` says that a text is cut into
the pieces of some trees, none of which is a comma at the outermost level, and that its
literals can be decoded. An expression that has a shape reads as trees, and one that does
is read as the items that its trees stand for.
-/

namespace StyleBinding.Shape

/-- A leaf, a comma, or a pair of brackets with what stands between them. -/
inductive Tree where
  | leaf (kind : LeafKind) (start : Nat) (raw : Text)
  | comma (start : Nat)
  | group (b : Bracket) (opening closing : Nat) (inside : List Tree)

namespace Tree

/-- Whether a tree is a comma. -/
def isComma : Tree → Bool
  | comma _ => true
  | _ => false

/-- Where a tree starts. -/
def start : Tree → Nat
  | leaf _ start _ | comma start | group _ start _ _ => start

/-- Where a tree stops. -/
def stop : Tree → Nat
  | leaf _ start raw => start + raw.length
  | comma start => start + 1
  | group _ _ closing _ => closing + 1

mutual

/-- The pieces of a tree, from left to right. -/
def pieces : Tree → List Piece
  | leaf kind start raw => [.leaf kind start raw]
  | comma start => [.comma start]
  | group b opening closing inside =>
    .opener b opening :: (piecesOf inside ++ [.closer b closing])

/-- The pieces of trees that stand one behind another. -/
def piecesOf : List Tree → List Piece
  | [] => []
  | tree :: rest => tree.pieces ++ piecesOf rest

end

/-- The number of slots between commas that hold something. -/
def slots (inside : List Tree) : Nat := (inside.splitOnP isComma).countP (!·.isEmpty)

end Tree

/-- A string is decodable, and so is a template without code in it. -/
def Piece.IsDecodable : Piece → Prop
  | .leaf .string _ raw => ∃ text, Literal.decodeQuoted raw = .ok text
  | .leaf .template _ raw =>
    ¬ ("$\x7b" : Text) <:+: raw → ∃ text, Literal.decodeQuoted raw = .ok text
  | _ => True

/-- An expression reads as trees. -/
structure ReadsAs (text : Text) (forest : List Tree) : Prop where
  cut : Cut 0 text (Tree.piecesOf forest)
  nonempty : forest ≠ []
  outside : ∀ tree ∈ forest, tree.isComma = false
  decodable : ∀ p ∈ Tree.piecesOf forest, p.IsDecodable

/-! ## Pieces at places -/

namespace Cut

variable {start : Nat} {text : Text} {front pieces : List Piece} {p : Piece}

/-- A piece stands in the text at its place, and those behind it are cut from there. -/
theorem at_piece (h : Cut start text (front ++ p :: pieces)) :
    ∃ before behind, text = before ++ (p.raw ++ behind) ∧ p.start = start + before.length ∧
      Cut p.stop behind pieces := by
  induction front generalizing start text with
  | nil =>
    cases h with
    | piece _ place _ rest => exact ⟨_, _, rfl, place, rest⟩
  | cons q front ih =>
    cases h with
    | @piece _ gap _ _ _ _ place _ rest =>
      obtain ⟨before, behind, rfl, place', rest'⟩ := ih rest
      refine ⟨gap ++ (q.raw ++ before), behind, ?_, ?_, rest'⟩
      · simp only [List.append_assoc]
      · rw [place', Piece.stop, place, List.length_append, List.length_append]
        omega

/-- What stands in front of the first piece is a gap. -/
theorem gap_before (h : Cut start text (p :: pieces)) :
    start ≤ p.start ∧ p.start - start ≤ text.length ∧
      IsGap (text.take (p.start - start)) (text.drop (p.start - start)) := by
  cases h with
  | @piece _ gap _ _ _ isGap place =>
    have length : p.start - start = gap.length := by omega
    rw [length, List.take_left, List.drop_left]
    exact ⟨by omega, by simp, isGap⟩

/-- What stands behind the last piece is a gap. -/
theorem gap_behind (h : Cut start text (front ++ [p])) :
    start ≤ p.stop ∧ p.stop - start ≤ text.length ∧
      IsGap (text.drop (p.stop - start)) [] := by
  obtain ⟨before, behind, rfl, place, rest⟩ := h.at_piece
  have length : p.stop - start = (before ++ p.raw).length := by
    rw [Piece.stop, List.length_append]
    omega
  rw [← List.append_assoc, length, List.drop_left]
  cases rest with
  | finish isGap => exact ⟨by rw [Piece.stop]; omega, by simp, isGap⟩

end Cut

namespace Tree

/-- A tree starts with its first piece. -/
theorem pieces_eq_cons (tree : Tree) :
    ∃ p rest, tree.pieces = p :: rest ∧ p.start = tree.start := by
  cases tree with
  | leaf kind start raw => exact ⟨_, [], by rw [pieces], rfl⟩
  | comma start => exact ⟨_, [], by rw [pieces], rfl⟩
  | group b opening closing inside => exact ⟨_, _, by rw [pieces], rfl⟩

/-- A tree stops with its last piece. -/
theorem pieces_eq_concat (tree : Tree) :
    ∃ front p, tree.pieces = front ++ [p] ∧ p.stop = tree.stop := by
  cases tree with
  | leaf kind start raw => exact ⟨[], _, by rw [pieces]; rfl, rfl⟩
  | comma start => exact ⟨[], _, by rw [pieces]; rfl, rfl⟩
  | group b opening closing inside =>
    exact ⟨.opener b opening :: piecesOf inside, .closer b closing, by rw [pieces]; rfl, rfl⟩

theorem piecesOf_append (front rest : List Tree) :
    piecesOf (front ++ rest) = piecesOf front ++ piecesOf rest := by
  induction front with
  | nil => rw [List.nil_append, piecesOf, List.nil_append]
  | cons tree front ih => rw [List.cons_append, piecesOf, piecesOf, ih, List.append_assoc]

end Tree

/-! ## What is decodable -/

theorem Piece.token?_isSome_iff (p : Piece) : p.token?.isSome = true ↔ p.IsDecodable := by
  have decoded (raw : Text) :
      (stringKind? raw).isSome = true ↔ ∃ text, Literal.decodeQuoted raw = .ok text := by
    rw [stringKind?]
    cases Literal.decodeQuoted raw <;> simp
  cases p with
  | leaf kind start raw =>
    rw [token?, Option.isSome_map]
    cases kind with
    | string => exact decoded raw
    | template =>
      rw [LeafKind.shapeKind?, templateKind?, IsDecodable]
      split
      · rename_i holdsCode
        exact iff_of_true rfl fun plain => absurd (Text.offsetOf?_isSome_iff.1 holdsCode) plain
      · rename_i plain
        rw [Text.offsetOf?_isSome_iff] at plain
        rw [forall_prop_of_true plain]
        cases Literal.decodeQuoted raw <;> simp
    | atom => simp [LeafKind.shapeKind?, IsDecodable]
  | opener | closer | comma => simp [token?, IsDecodable]

/-- Pieces are tokens if and only if each of them is decodable. -/
theorem Piece.mapM_token?_isSome_iff (pieces : List Piece) :
    (∃ tokens, pieces.mapM token? = some tokens) ↔ ∀ p ∈ pieces, p.IsDecodable := by
  induction pieces with
  | nil => simp
  | cons p pieces ih =>
    rw [List.mapM_cons, List.forall_mem_cons, ← ih, ← token?_isSome_iff]
    cases p.token? <;> cases pieces.mapM token? <;> simp

theorem mapM_append_eq_some {front rest : List Piece} {tokens : List Token}
    (h : (front ++ rest).mapM Piece.token? = some tokens) :
    ∃ first more, front.mapM Piece.token? = some first ∧ rest.mapM Piece.token? = some more ∧
      tokens = first ++ more := by
  rw [List.mapM_append] at h
  obtain ⟨first, isFirst, h⟩ := Option.bind_eq_some_iff.1 h
  obtain ⟨more, isMore, h⟩ := Option.bind_eq_some_iff.1 h
  exact ⟨first, more, isFirst, isMore, (Option.some.inj h).symm⟩

/-! ## Trees and items -/

theorem LeafKind.shapeKind?_cases {kind : LeafKind} {raw : Text} {shapeKind : ShapeKind}
    (h : kind.shapeKind? raw = some shapeKind) : (∃ text, shapeKind = .string text) ∨
      (∃ text, shapeKind = .template text) ∨ shapeKind = .atom := by
  unfold shapeKind? stringKind? templateKind? at h
  split at h
  · split at h <;> cases h
    exact .inl ⟨_, rfl⟩
  · split at h
    · cases h
      exact .inr (.inl ⟨_, rfl⟩)
    · split at h <;> cases h
      exact .inr (.inl ⟨_, rfl⟩)
  · cases h
    exact .inr (.inr rfl)

/-- A group that is made, whatever its brackets are. -/
theorem ofGroup?_eq_some {b : Bracket} {opening closing : Span} {items : List Item}
    {shape : Shape} (made : ofGroup? b opening closing items = some shape) :
    shape.span.start = opening.start ∧ shape.span.stop = closing.stop ∧
      ((b = .square ∧ ∃ inner, shape.kind = .array inner (countSlots false items) ∧
          inner.start = opening.stop ∧ inner.stop = closing.start) ∨
        (b = .curly ∧ shape.kind = .object) ∨ (b = .round ∧ shape.kind = .group)) := by
  unfold ofGroup? at made
  split at made
  · cases b with
    | square =>
      cases made
      exact ⟨rfl, rfl, .inl ⟨rfl, _, rfl, rfl, rfl⟩⟩
    | curly =>
      cases made
      exact ⟨rfl, rfl, .inr (.inl ⟨rfl, rfl⟩)⟩
    | round =>
      cases made
      exact ⟨rfl, rfl, .inr (.inr ⟨rfl, rfl⟩)⟩
  · cases made

/-- What a tree stands for among the items of a group. -/
inductive Tree.StandsFor : Tree → Item → Prop
  | leaf {kind : LeafKind} {start : Nat} {raw : Text} {shapeKind : ShapeKind} :
    kind.shapeKind? raw = some shapeKind →
    StandsFor (.leaf kind start raw) (.term ⟨shapeKind, spanFrom start raw.length⟩)
  | comma {start : Nat} : StandsFor (.comma start) .comma
  | group {b : Bracket} {opening closing : Nat} {inside : List Tree} {items : List Item}
      {shape : Shape} :
    ofGroup? b (spanFrom opening 1) (spanFrom closing 1) items = some shape →
    countSlots false items = Tree.slots inside →
    StandsFor (.group b opening closing inside) (.term shape)

namespace Tree.StandsFor

variable {tree : Tree} {shape : Shape}

theorem isComma_iff {item : Item} (h : tree.StandsFor item) :
    tree.isComma = true ↔ item = .comma := by
  cases h with
  | leaf | group => exact iff_of_false Bool.false_ne_true nofun
  | comma => exact iff_of_true rfl rfl

/-- A term covers its tree. -/
theorem span_eq (h : tree.StandsFor (.term shape)) :
    shape.span.start = tree.start ∧ shape.span.stop = tree.stop := by
  cases h with
  | leaf => exact ⟨rfl, rfl⟩
  | group made =>
    obtain ⟨starts, stops, -⟩ := ofGroup?_eq_some made
    exact ⟨starts, stops⟩

/-- A term is no sequence of terms. -/
theorem kind_ne_other (h : tree.StandsFor (.term shape)) : shape.kind ≠ .other := by
  cases h with
  | leaf isKind =>
    rcases LeafKind.shapeKind?_cases isKind with ⟨_, rfl⟩ | ⟨_, rfl⟩ | rfl <;> nofun
  | group made =>
    obtain ⟨-, -, ⟨-, _, isKind, -⟩ | ⟨-, isKind⟩ | ⟨-, isKind⟩⟩ := ofGroup?_eq_some made
    all_goals
      rw [isKind]
      nofun

/-- A term is an array if and only if its tree is a pair of square brackets. -/
theorem array_iff (h : tree.StandsFor (.term shape)) {inner : Span} {elements : Nat} :
    shape.kind = .array inner elements ↔ ∃ inside,
      tree = .group .square shape.span.start inner.stop inside ∧
        inner.start = shape.span.start + 1 ∧ elements = slots inside := by
  cases h with
  | leaf isKind =>
    refine iff_of_false ?_ nofun
    rcases LeafKind.shapeKind?_cases isKind with ⟨_, rfl⟩ | ⟨_, rfl⟩ | rfl <;> nofun
  | @group b opening closing inside items _ made counted =>
    obtain ⟨starts, -, kinds⟩ := ofGroup?_eq_some made
    rw [starts]
    change _ ↔ ∃ inside', Tree.group b opening closing inside = .group .square opening _ inside' ∧ _
    rcases kinds with ⟨rfl, inner', isKind, starts', stops'⟩ | ⟨rfl, isKind⟩ | ⟨rfl, isKind⟩
    · rw [isKind, counted]
      constructor
      · rintro ⟨⟩
        exact ⟨inside, by rw [stops']; rfl, starts', rfl⟩
      · rintro ⟨inside', same, starts, rfl⟩
        cases same
        cases inner'
        cases inner
        cases starts'
        cases stops'
        cases starts
        rfl
    all_goals
      rw [isKind]
      exact iff_of_false nofun nofun

end Tree.StandsFor

/-- Items count the slots of the trees that they stand for. -/
theorem countSlots_eq {inside : List Tree} {items : List Item}
    (h : List.Forall₂ Tree.StandsFor inside items) :
    countSlots false items = Tree.slots inside := by
  -- The slot that is being read may hold a term already.
  have general (pending : Bool) : ∃ first rest, inside.splitOnP Tree.isComma = first :: rest ∧
      countSlots pending items =
        (if pending || !first.isEmpty then 1 else 0) + rest.countP (!·.isEmpty) := by
    induction h generalizing pending with
    | nil => exact ⟨[], [], List.splitOnP_nil, by cases pending <;> rfl⟩
    | @cons tree item inside items here _ ih =>
      rw [List.splitOnP_cons_eq_if_modifyHead]
      cases item with
      | comma =>
        obtain ⟨first, rest, split, count⟩ := ih false
        rw [if_pos (here.isComma_iff.2 rfl), split]
        refine ⟨[], first :: rest, rfl, ?_⟩
        rw [countSlots, count, List.countP_cons]
        cases first.isEmpty <;> cases pending <;> simp <;> omega
      | term shape =>
        obtain ⟨first, rest, split, count⟩ := ih true
        have noComma : ¬ tree.isComma = true := fun isComma => nomatch here.isComma_iff.1 isComma
        rw [if_neg noComma, split]
        refine ⟨tree :: first, rest, rfl, ?_⟩
        rw [countSlots, count]
        simp
  obtain ⟨first, rest, split, count⟩ := general false
  rw [count, Tree.slots, split, List.countP_cons, Bool.false_or, Nat.add_comm]

/-! ## Grouping -/

theorem Token.Laid.of_append {low high : Nat} {front rest : List Token}
    (h : Token.Laid low (front ++ rest) high) : ∃ mid, low ≤ mid ∧ Token.Laid mid rest high := by
  induction front generalizing low with
  | nil => exact ⟨low, Nat.le_refl low, h⟩
  | cons token front ih =>
    cases h with
    | comma behind => exact ih behind
    | @term _ _ shape _ _ le behind =>
      obtain ⟨mid, le', laid⟩ := ih behind
      exact ⟨mid, by have := shape.span.le; omega, laid⟩
    | @opener _ _ _ mark _ le behind | @closer _ _ _ mark _ le behind =>
      obtain ⟨mid, le', laid⟩ := ih behind
      exact ⟨mid, by have := mark.le; omega, laid⟩

mutual

/-- The tokens of a tree are grouped to what it stands for. -/
theorem group?_tree {low high : Nat} {tokens rest : List Token} (outer : List Frame)
    (items : List Item) : (tree : Tree) → tree.pieces.mapM Piece.token? = some tokens →
    Token.Laid low (tokens ++ rest) high → (outer = [] → tree.isComma = false) →
    ∃ item, tree.StandsFor item ∧
      group? outer items (tokens ++ rest) = group? outer (item :: items) rest
  | .leaf kind start raw, isTokens, laid, outside => by
    rw [Tree.pieces, List.mapM_cons, Piece.token?] at isTokens
    obtain ⟨token, isToken, isTokens⟩ := Option.bind_eq_some_iff.1 isTokens
    obtain ⟨shapeKind, isKind, rfl⟩ := Option.map_eq_some_iff.1 isToken
    cases isTokens
    exact ⟨_, .leaf isKind, rfl⟩
  | .comma start, isTokens, laid, outside => by
    rw [Tree.pieces] at isTokens
    obtain rfl : [Token.comma] = tokens := Option.some.inj isTokens
    have inside : outer.isEmpty = false := by
      cases outer with
      | nil => cases outside rfl
      | cons => rfl
    refine ⟨.comma, .comma, ?_⟩
    rw [List.singleton_append, group?, if_neg (by simp [inside])]
  | .group b opening closing inside, isTokens, laid, outside => by
    rw [Tree.pieces, List.mapM_cons] at isTokens
    obtain ⟨first, isOpener, isTokens⟩ := Option.bind_eq_some_iff.1 isTokens
    obtain ⟨more, isMore, same⟩ := Option.bind_eq_some_iff.1 isTokens
    obtain ⟨between, last, isBetween, isCloser, rfl⟩ := mapM_append_eq_some isMore
    obtain rfl : Token.opener b (spanFrom opening 1) = first := Option.some.inj isOpener
    obtain rfl : [Token.closer b (spanFrom closing 1)] = last := Option.some.inj isCloser
    obtain rfl := Option.some.inj same
    rw [List.cons_append, List.append_assoc, List.singleton_append] at laid ⊢
    cases laid with
    | opener _ laid =>
      have inOrder : (spanFrom opening 1).stop ≤ (spanFrom closing 1).start := by
        obtain ⟨mid, le, behind⟩ := laid.of_append
        cases behind with
        | closer le' => exact Nat.le_trans le le'
      obtain ⟨made, stands, grouped⟩ :=
        group?_forest (⟨b, spanFrom opening 1, items⟩ :: outer) [] inside isBetween laid nofun
      obtain ⟨shape, isShape, -⟩ := ofGroup?_isSome inOrder b made
      refine ⟨.term shape, .group isShape (countSlots_eq stands), ?_⟩
      rw [group?, grouped, List.append_nil, group?.eq_def]
      simp only [if_true, List.reverse_reverse, isShape]

/-- The tokens of trees are grouped to what they stand for. -/
theorem group?_forest {low high : Nat} {tokens rest : List Token} (outer : List Frame)
    (items : List Item) : (forest : List Tree) →
    (Tree.piecesOf forest).mapM Piece.token? = some tokens →
    Token.Laid low (tokens ++ rest) high → (outer = [] → ∀ tree ∈ forest, tree.isComma = false) →
    ∃ made, List.Forall₂ Tree.StandsFor forest made ∧
      group? outer items (tokens ++ rest) = group? outer (made.reverse ++ items) rest
  | [], isTokens, laid, outside => by
    rw [Tree.piecesOf] at isTokens
    obtain rfl : [] = tokens := Option.some.inj isTokens
    exact ⟨[], .nil, rfl⟩
  | tree :: forest, isTokens, laid, outside => by
    rw [Tree.piecesOf] at isTokens
    obtain ⟨first, more, isFirst, isMore, rfl⟩ := mapM_append_eq_some isTokens
    rw [List.append_assoc] at laid ⊢
    obtain ⟨item, here, grouped⟩ := group?_tree outer items tree isFirst laid
      fun outermost => outside outermost tree List.mem_cons_self
    obtain ⟨mid, -, laid⟩ := laid.of_append
    obtain ⟨made, behind, grouped'⟩ := group?_forest outer (item :: items) forest isMore laid
      fun outermost t member => outside outermost t (List.mem_cons_of_mem _ member)
    refine ⟨item :: made, .cons here behind, ?_⟩
    rw [grouped, grouped', List.reverse_cons, List.append_assoc, List.singleton_append]

end

/-! ## Brackets -/

/-- The pieces behind some open brackets: trees up to each closing bracket, and trees
at the outermost level. -/
inductive Closes : List Bracket → List Piece → Prop
  | outside {forest : List Tree} : (∀ tree ∈ forest, tree.isComma = false) →
    Closes [] (Tree.piecesOf forest)
  | inside {b : Bracket} {opened : List Bracket} {closing : Nat} {forest : List Tree}
      {rest : List Piece} : Closes opened rest →
    Closes (b :: opened) (Tree.piecesOf forest ++ .closer b closing :: rest)

/-- One more tree in front. -/
theorem Closes.cons {opened : List Bracket} {rest : List Piece} {tree : Tree}
    (h : Closes opened rest) (inside : opened = [] → tree.isComma = false) :
    Closes opened (tree.pieces ++ rest) := by
  cases h with
  | @outside forest outside =>
    have whole : Closes [] (Tree.piecesOf (tree :: forest)) :=
      .outside (List.forall_mem_cons.2 ⟨inside rfl, outside⟩)
    rwa [Tree.piecesOf] at whole
  | @inside b opened closing forest rest behind =>
    have whole : Closes (b :: opened)
        (Tree.piecesOf (tree :: forest) ++ .closer b closing :: rest) := .inside behind
    rwa [Tree.piecesOf, List.append_assoc] at whole

/-- Pieces whose brackets match are those of trees. -/
theorem closes_of_balanced {opened : List Bracket} {pieces : List Piece} {tokens : List Token}
    (isTokens : pieces.mapM Piece.token? = some tokens) (h : balanced opened tokens = true) :
    Closes opened pieces := by
  induction pieces generalizing opened tokens with
  | nil =>
    obtain rfl : [] = tokens := Option.some.inj isTokens
    rw [balanced, List.isEmpty_iff] at h
    rw [h]
    exact (Closes.outside (List.forall_mem_nil _) : Closes [] (Tree.piecesOf []))
  | cons p pieces ih =>
    rw [List.mapM_cons] at isTokens
    obtain ⟨token, isToken, isTokens⟩ := Option.bind_eq_some_iff.1 isTokens
    obtain ⟨more, isMore, same⟩ := Option.bind_eq_some_iff.1 isTokens
    obtain rfl := Option.some.inj same
    cases p with
    | leaf kind start raw =>
      obtain ⟨shapeKind, -, rfl⟩ := Option.map_eq_some_iff.1 isToken
      rw [balanced] at h
      have behind : Closes opened ((Tree.leaf kind start raw).pieces ++ pieces) :=
        (ih isMore h).cons fun _ => rfl
      rwa [Tree.pieces] at behind
    | comma start =>
      obtain rfl : Token.comma = token := Option.some.inj isToken
      rw [balanced, Bool.and_eq_true] at h
      have behind : Closes opened ((Tree.comma start).pieces ++ pieces) := by
        refine (ih isMore h.2).cons ?_
        rintro rfl
        cases h.1
      rwa [Tree.pieces] at behind
    | opener b start =>
      obtain rfl : Token.opener b (spanFrom start 1) = token := Option.some.inj isToken
      rw [balanced] at h
      cases ih isMore h with
      | @inside _ _ closing forest rest behind =>
        have whole : Closes opened ((Tree.group b start closing forest).pieces ++ rest) :=
          behind.cons fun _ => rfl
        rwa [Tree.pieces, List.cons_append, List.append_assoc, List.singleton_append] at whole
    | closer b start =>
      obtain rfl : Token.closer b (spanFrom start 1) = token := Option.some.inj isToken
      rw [balanced.eq_def] at h
      cases opened with
      | nil => cases h
      | cons o outer =>
        rw [Bool.and_eq_true, decide_eq_true_eq] at h
        obtain ⟨rfl, h⟩ := h
        exact (Closes.inside (ih isMore h) : Closes _ (Tree.piecesOf [] ++ _))

/-! ## Shapes -/

namespace ReadsAs

variable {text : Text} {forest : List Tree}

/-- An expression that reads as trees is read as the items that they stand for. -/
theorem parse_eq (h : ReadsAs text forest) : ∃ items,
    List.Forall₂ Tree.StandsFor forest items ∧ parse text = ofItems? items := by
  obtain ⟨tokens, isTokens⟩ := (Piece.mapM_token?_isSome_iff _).2 h.decodable
  have cut := h.cut.tokens?_eq
  rw [isTokens] at cut
  have laid := tokens?_laid cut
  rw [← List.append_nil tokens] at laid
  obtain ⟨items, stands, grouped⟩ := group?_forest [] [] forest isTokens laid fun _ => h.outside
  refine ⟨items, stands, ?_⟩
  rw [List.append_nil, List.append_nil, group?, List.isEmpty_nil, if_pos rfl,
    List.reverse_reverse] at grouped
  rw [parse, Cursor.ofSource, cut]
  simp only [Option.bind_eq_bind, Option.bind_some, grouped]

end ReadsAs

/-- An expression with a shape reads as trees. -/
theorem exists_readsAs {text : Text} {shape : Shape} (h : parse text = some shape) :
    ∃ forest, ReadsAs text forest := by
  simp only [parse, Option.bind_eq_bind, Option.bind_eq_some_iff] at h
  obtain ⟨tokens, isTokens, items, isGrouped, isShape⟩ := h
  obtain ⟨pieces, cut⟩ := exists_cut isTokens
  have isPieces : pieces.mapM Piece.token? = some tokens := cut.tokens?_eq.symm.trans isTokens
  have matched : (group? [] [] tokens).isSome = balanced [] tokens :=
    group?_isSome (tokens?_laid isTokens) (List.forall_mem_nil _)
  rw [isGrouped] at matched
  cases closes_of_balanced isPieces matched.symm with
  | @outside forest outside =>
    refine ⟨forest, cut, ?_, outside, (Piece.mapM_token?_isSome_iff _).1 ⟨tokens, isPieces⟩⟩
    rintro rfl
    obtain rfl : [] = tokens := Option.some.inj isPieces
    obtain rfl : [] = items := Option.some.inj isGrouped
    cases isShape

end StyleBinding.Shape
