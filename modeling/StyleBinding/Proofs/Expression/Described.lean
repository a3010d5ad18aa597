import StyleBinding.Proofs.Expression.Static
import StyleBinding.Proofs.Expression.Trees

/-!
# What shapes tell

An expression has a shape if and only if it reads as trees. The shape tells where the
trees stand, whether there are several, and of a single one what it is: of square
brackets, what stands between them and how many slots hold something. It stands for a
fixed text if it is one literal without code, apart from gaps.
-/

namespace StyleBinding.Shape

/-- What a shape tells about the trees that an expression reads as. -/
structure Describes (s : Shape) (text : Text) (forest : List Tree) : Prop where
  inside : s.span.stop ≤ text.length
  before : IsGap (text.take s.span.start) (text.drop s.span.start)
  behind : IsGap (text.drop s.span.stop) []
  several : s.kind = .other ↔ 2 ≤ forest.length
  alone : ∀ tree, forest = [tree] → tree.StandsFor (.term s)
  array : ∀ inner elements, s.kind = .array inner elements ↔
    ∃ trees, forest = [.group .square s.span.start inner.stop trees] ∧
      inner.start = s.span.start + 1 ∧ elements = Tree.slots trees
  brackets : ∀ inner elements, s.kind = .array inner elements →
    text = text.take s.span.start ++ (("[" : Text) ++ inner.text text ++ ("]" : Text)) ++
      text.drop s.span.stop

namespace ReadsAs

variable {text : Text} {forest : List Tree}

/-- The first tree has nothing but a gap in front of it. -/
theorem gap_before {first : Tree} {rest : List Tree} (h : ReadsAs text (first :: rest)) :
    IsGap (text.take first.start) (text.drop first.start) := by
  obtain ⟨p, pieces, whole, starts⟩ := first.pieces_eq_cons
  have cut := h.cut
  rw [Tree.piecesOf, whole, List.cons_append] at cut
  have gap := cut.gap_before
  rw [starts, Nat.sub_zero] at gap
  exact gap.2.2

/-- The last tree has nothing but a gap behind it. -/
theorem gap_behind (front : List Tree) (last : Tree) (h : ReadsAs text (front ++ [last])) :
    last.stop ≤ text.length ∧ IsGap (text.drop last.stop) [] := by
  obtain ⟨pieces, p, whole, stops⟩ := last.pieces_eq_concat
  have cut := h.cut
  rw [Tree.piecesOf_append, Tree.piecesOf, Tree.piecesOf, List.append_nil, whole,
    ← List.append_assoc] at cut
  have gap := cut.gap_behind
  rw [stops, Nat.sub_zero] at gap
  exact gap.2

/-- The last tree stops no earlier than the first one. -/
theorem stop_le_stop {first last : Tree} {between : List Tree}
    (h : ReadsAs text (first :: (between ++ [last]))) : first.stop ≤ last.stop := by
  obtain ⟨front, p, whole, stops⟩ := first.pieces_eq_concat
  obtain ⟨back, q, whole', stops'⟩ := last.pieces_eq_concat
  have cut := h.cut
  rw [Tree.piecesOf, Tree.piecesOf_append, Tree.piecesOf, Tree.piecesOf, List.append_nil, whole,
    whole', List.append_assoc, List.singleton_append, ← List.append_assoc] at cut
  obtain ⟨_, _, -, -, behind⟩ := cut.at_piece
  rw [← stops, ← stops']
  exact behind.gap_behind.1

/-- A pair of brackets stands around the text between its marks. -/
theorem text_eq {b : Bracket} {opening closing : Nat} {inside : List Tree}
    (h : ReadsAs text [.group b opening closing inside]) :
    text = text.take opening ++ (.scalar b.opener :: text.slice (opening + 1) closing ++
      [.scalar b.closer]) ++ text.drop (closing + 1) := by
  have cut : Cut 0 text ([] ++ Piece.opener b opening ::
      (Tree.piecesOf inside ++ [.closer b closing])) := by
    have cut := h.cut
    rwa [Tree.piecesOf, Tree.piecesOf, List.append_nil, Tree.pieces] at cut
  obtain ⟨before, rest, whole, opens, cut⟩ := cut.at_piece
  obtain ⟨between, behind, rfl, closes, -⟩ := cut.at_piece
  obtain rfl : opening = before.length := by rwa [Nat.zero_add] at opens
  obtain rfl : closing = before.length + 1 + between.length := closes
  change text = before ++ (.scalar b.opener :: (between ++ .scalar b.closer :: behind)) at whole
  have fromOpener : text.drop (before.length + 1) = between ++ .scalar b.closer :: behind := by
    rw [whole, List.drop_length_add_append]
    rfl
  have front : text.take before.length = before := by rw [whole, List.take_left]
  have slice : text.slice (before.length + 1) (before.length + 1 + between.length) = between := by
    rw [Text.slice, fromOpener, Nat.add_sub_cancel_left, List.take_left]
  have back : text.drop (before.length + 1 + between.length + 1) = behind := by
    rw [Nat.add_assoc (before.length + 1), ← List.drop_drop, fromOpener,
      List.drop_length_add_append]
    rfl
  rw [front, slice, back]
  simpa using whole

/-- One tree is described by what it stands for. -/
theorem describes_alone {tree : Tree} {s : Shape} (h : ReadsAs text [tree])
    (stands : tree.StandsFor (.term s)) : s.Describes text [tree] := by
  obtain ⟨starts, stops⟩ := stands.span_eq
  have behind : tree.stop ≤ text.length ∧ IsGap (text.drop tree.stop) [] :=
    gap_behind [] tree h
  have array (inner : Span) (elements : Nat) : s.kind = .array inner elements ↔
      ∃ trees, [tree] = [.group .square s.span.start inner.stop trees] ∧
        inner.start = s.span.start + 1 ∧ elements = Tree.slots trees := by
    rw [stands.array_iff]
    simp only [List.cons.injEq, and_true]
  refine ⟨stops ▸ behind.1, starts ▸ h.gap_before, stops ▸ behind.2, ?_, ?_, array, ?_⟩
  · exact iff_of_false stands.kind_ne_other (by simp)
  · rintro _ ⟨⟩
    exact stands
  · intro inner elements isArray
    obtain ⟨trees, same, starts', -⟩ := (array inner elements).1 isArray
    cases same
    rw [Span.text, starts', stops]
    exact h.text_eq

/-- Several trees are described by the span from the first to the last of them. -/
theorem describes_several {first last : Tree} {between : List Tree} {s t : Shape}
    (h : ReadsAs text (first :: (between ++ [last]))) (isFirst : first.StandsFor (.term s))
    (isLast : last.StandsFor (.term t)) :
    Describes ⟨.other, s.span.extendTo t.span.stop⟩ text (first :: (between ++ [last])) := by
  have two : 2 ≤ (first :: (between ++ [last])).length := by simp
  have behind := gap_behind (first :: between) last h
  have stops : max s.span.stop t.span.stop = last.stop := by
    rw [isFirst.span_eq.2, isLast.span_eq.2]
    exact Nat.max_eq_right h.stop_le_stop
  have starts : s.span.start = first.start := isFirst.span_eq.1
  refine ⟨?_, ?_, ?_, iff_of_true rfl two, ?_, ?_, nofun⟩
  · exact Nat.le_trans (Nat.le_of_eq stops) behind.1
  · change IsGap (text.take s.span.start) (text.drop s.span.start)
    rw [starts]
    exact h.gap_before
  · change IsGap (text.drop (max s.span.stop t.span.stop)) []
    rw [stops]
    exact behind.2
  · intro tree same
    rw [same] at two
    exact absurd two (by simp)
  · refine fun inner elements => iff_of_false nofun ?_
    rintro ⟨trees, same, -⟩
    rw [same] at two
    exact absurd two (by simp)

/-- An expression that reads as trees has a shape, which tells what they are. -/
theorem describes (h : ReadsAs text forest) :
    ∃ s, parse text = some s ∧ s.Describes text forest := by
  obtain ⟨items, stands, parsed⟩ := h.parse_eq
  have isTerm {tree : Tree} {item : Item} (member : tree ∈ forest) (here : tree.StandsFor item) :
      ∃ s, item = .term s := by
    cases item with
    | comma =>
      have isComma := here.isComma_iff.2 rfl
      rw [h.outside tree member] at isComma
      cases isComma
    | term s => exact ⟨s, rfl⟩
  cases stands with
  | nil => exact absurd rfl h.nonempty
  | @cons first item rest items here behind =>
    obtain ⟨s, rfl⟩ := isTerm List.mem_cons_self here
    obtain rfl | ⟨between, last, several⟩ := List.eq_nil_or_concat rest
    · cases behind
      exact ⟨s, parsed, h.describes_alone here⟩
    · rw [List.concat_eq_append] at several
      subst several
      have backwards := List.forall₂_reverse_iff.2 behind
      rw [List.reverse_append, List.reverse_singleton, List.singleton_append] at backwards
      obtain ⟨item, front, isLast, -, reversed⟩ := List.forall₂_cons_left_iff.1 backwards
      obtain ⟨t, rfl⟩ := isTerm (by simp) isLast
      have ends : items.getLast? = some (.term t) := by
        rw [← List.head?_reverse, reversed]
        rfl
      obtain ⟨other, others, rfl⟩ := List.exists_cons_of_ne_nil
        (List.ne_nil_of_mem (List.mem_of_getLast? ends))
      refine ⟨_, parsed.trans ?_, h.describes_several here isLast⟩
      rw [ofItems?]
      · simp only [ends]
      · exact List.cons_ne_nil _ _

end ReadsAs

/-! ## Lone literals -/

/-- A string, or a template without code in it. -/
def IsConstant (raw : Text) : Prop :=
  IsString raw ∨ (IsTemplate raw ∧ ¬ ("$\x7b" : Text) <:+: raw)

/-- A text is one string or one template without code, apart from gaps. -/
def IsLone (text raw : Text) : Prop :=
  ∃ gap gap', text = gap ++ (raw ++ gap') ∧ IsGap gap (raw ++ gap') ∧ IsGap gap' [] ∧
    IsConstant raw

/-- A leaf that stands for a fixed text is a constant. -/
theorem LeafKind.Matches.isConstant {kind : LeafKind} {raw behind fixed : Text}
    {shapeKind : ShapeKind} {span : Span} (h : kind.Matches raw behind)
    (isKind : kind.shapeKind? raw = some shapeKind)
    (isStatic : (⟨shapeKind, span⟩ : Shape).staticText? = some fixed) :
    IsConstant raw ∧ Literal.decodeQuoted raw = .ok fixed := by
  cases h with
  | string isString =>
    rw [shapeKind?, stringKind?] at isKind
    split at isKind <;> cases isKind
    rename_i decoded
    cases isStatic
    exact ⟨.inl isString, decoded⟩
  | template isTemplate =>
    rw [shapeKind?, templateKind?] at isKind
    split at isKind
    · cases isKind
      cases isStatic
    rename_i noCode
    rw [Text.offsetOf?_isSome_iff] at noCode
    split at isKind <;> cases isKind
    rename_i decoded
    cases isStatic
    exact ⟨.inr ⟨isTemplate, noCode⟩, decoded⟩
  | atom =>
    cases isKind
    cases isStatic

/-- A constant is a leaf, whatever stands behind it. -/
theorem IsConstant.matches {raw fixed : Text} (h : IsConstant raw)
    (decoded : Literal.decodeQuoted raw = .ok fixed) (behind : Text) (span : Span) :
    ∃ kind shapeKind, LeafKind.Matches kind raw behind ∧ kind.shapeKind? raw = some shapeKind ∧
      (⟨shapeKind, span⟩ : Shape).staticText? = some fixed := by
  rcases h with isString | ⟨isTemplate, noCode⟩
  · refine ⟨.string, .string fixed, .string isString, ?_, rfl⟩
    rw [LeafKind.shapeKind?, stringKind?, decoded]
  · refine ⟨.template, .template (some fixed), .template isTemplate, ?_, rfl⟩
    rw [← Text.offsetOf?_isSome_iff] at noCode
    rw [LeafKind.shapeKind?, templateKind?, if_neg noCode, decoded]

/-- A group stands for no fixed text. -/
theorem staticText?_of_group {b : Bracket} {opening closing : Nat} {inside : List Tree}
    {s : Shape} (h : (Tree.group b opening closing inside).StandsFor (.term s)) :
    s.staticText? = none := by
  cases h with
  | group made => exact ofGroup?_staticText? made

/-- An expression stands for a fixed text if and only if it is one literal without code,
apart from gaps, which is decoded to that text. -/
theorem staticText?_eq_some_iff {text fixed : Text} :
    (parse text).bind (·.staticText?) = some fixed ↔
      ∃ raw, IsLone text raw ∧ Literal.decodeQuoted raw = .ok fixed := by
  constructor
  · intro isFixed
    obtain ⟨s, isShape, isStatic⟩ := Option.bind_eq_some_iff.1 isFixed
    obtain ⟨forest, reads⟩ := exists_readsAs isShape
    obtain ⟨s', isShape', describes⟩ := reads.describes
    obtain rfl := Option.some.inj (isShape.symm.trans isShape')
    have one : forest.length = 1 := by
      have nonempty := List.length_pos_iff.2 reads.nonempty
      have noOther : s.kind ≠ .other := by
        intro isOther
        rw [staticText?, isOther] at isStatic
        cases isStatic
      rw [ne_eq, describes.several] at noOther
      omega
    obtain ⟨tree, rfl⟩ := List.length_eq_one_iff.1 one
    have stands := describes.alone tree rfl
    cases tree with
    | comma => cases stands
    | group =>
      rw [staticText?_of_group stands] at isStatic
      cases isStatic
    | leaf kind start raw =>
      have cut := reads.cut
      rw [Tree.piecesOf, Tree.piecesOf, Tree.pieces, List.append_nil] at cut
      cases stands with
      | leaf isKind =>
        cases cut with
        | piece isGap _ isLeaf rest =>
          obtain ⟨isConstant, decoded⟩ := LeafKind.Matches.isConstant isLeaf isKind isStatic
          cases rest with
          | finish isGap' => exact ⟨raw, ⟨_, _, rfl, isGap, isGap', isConstant⟩, decoded⟩
  · rintro ⟨raw, ⟨gap, gap', rfl, isGap, isGap', isConstant⟩, decoded⟩
    obtain ⟨kind, shapeKind, isLeaf, isKind, isStatic⟩ :=
      isConstant.matches decoded gap' (spanFrom gap.length raw.length)
    have isToken : (Piece.leaf kind gap.length raw).token?.isSome = true := by
      rw [Piece.token?, isKind]
      rfl
    have reads : ReadsAs (gap ++ (raw ++ gap')) [.leaf kind gap.length raw] := by
      refine ⟨?_, List.cons_ne_nil _ _, by simp [Tree.isComma], ?_⟩
      · rw [Tree.piecesOf, Tree.piecesOf, Tree.pieces, List.append_nil]
        exact (.piece isGap (Nat.zero_add _).symm isLeaf (.finish isGap') :
          Cut 0 (gap ++ ((Piece.leaf kind gap.length raw).raw ++ gap')) [_])
      · rw [Tree.piecesOf, Tree.piecesOf, Tree.pieces, List.append_nil]
        exact List.forall_mem_singleton.2 ((Piece.token?_isSome_iff _).1 isToken)
    obtain ⟨items, stands, isShape⟩ := reads.parse_eq
    obtain ⟨item, rest, here, behind, rfl⟩ := List.forall₂_cons_left_iff.1 stands
    cases behind
    cases here with
    | leaf isKind' =>
      obtain rfl := Option.some.inj (isKind.symm.trans isKind')
      rw [isShape]
      exact isStatic

/-- An expression has a shape if and only if it reads as trees, and the shape tells
what the trees are. -/
theorem parse_isSome_iff_readsAs (text : Text) :
    ((parse text).isSome = true ↔ ∃ forest, ReadsAs text forest) ∧
      ∀ forest s, ReadsAs text forest → parse text = some s → s.Describes text forest := by
  refine ⟨⟨fun isShape => ?_, ?_⟩, ?_⟩
  · obtain ⟨s, isShape⟩ := Option.isSome_iff_exists.1 isShape
    exact exists_readsAs isShape
  · rintro ⟨forest, reads⟩
    obtain ⟨s, isShape, -⟩ := reads.describes
    exact Option.isSome_iff_exists.2 ⟨s, isShape⟩
  · intro forest s reads isShape
    obtain ⟨t, isShape', describes⟩ := reads.describes
    obtain rfl := Option.some.inj (isShape.symm.trans isShape')
    exact describes

/-- An array with a nested one, a hole, a comma at its end and commas in a comment and
in a string. -/
def slottedText : Text := " /* [,] */ [a, 'b,', , [c, d] e,] // ,"

theorem parse_isSome_iff_readsAs_slotted :
    parse slottedText = some ⟨.array ⟨12, 32, by decide⟩ 3, ⟨11, 33, by decide⟩⟩ ∧
      ∃ forest, ReadsAs slottedText forest ∧
        Describes ⟨.array ⟨12, 32, by decide⟩ 3, ⟨11, 33, by decide⟩⟩ slottedText forest := by
  have isShape : parse slottedText =
      some ⟨.array ⟨12, 32, by decide⟩ 3, ⟨11, 33, by decide⟩⟩ := by decide +kernel
  obtain ⟨iff, describes⟩ := parse_isSome_iff_readsAs slottedText
  obtain ⟨forest, reads⟩ := iff.1 (by rw [isShape]; rfl)
  exact ⟨isShape, forest, reads, describes forest _ reads isShape⟩

end StyleBinding.Shape
