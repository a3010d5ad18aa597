import StyleBinding.Proofs.Expression.Shape
import StyleBinding.Proofs.Source.Escape

/-!
# Static texts

An expression stands for a fixed text only if it is one literal, and then the text is
what that literal in it is decoded to.
-/

namespace StyleBinding.Shape

/-- The fixed text of a shape, if it has one, is what some literal in a text is decoded
to. -/
def ReadsFrom (t : Text) (s : Shape) : Prop :=
  ∀ text, s.staticText? = some text → ∃ raw, raw <:+: t ∧ Literal.decodeQuoted raw = .ok text

theorem ReadsFrom.mono {t u : Text} {s : Shape} (h : s.ReadsFrom t) (inside : t <:+: u) :
    s.ReadsFrom u := by
  intro text isStatic
  obtain ⟨raw, within, decoded⟩ := h text isStatic
  exact ⟨raw, within.trans inside, decoded⟩

/-! ## Tokens -/

theorem stringKind?_readsFrom {raw : Text} {kind : ShapeKind} (h : stringKind? raw = some kind)
    (span : Span) : (⟨kind, span⟩ : Shape).ReadsFrom raw := by
  unfold stringKind? at h
  split at h
  · rename_i decoded
    cases h
    intro text isStatic
    cases isStatic
    exact ⟨raw, List.infix_refl raw, decoded⟩
  · cases h

theorem templateKind?_readsFrom {raw : Text} {kind : ShapeKind}
    (h : templateKind? raw = some kind) (span : Span) :
    (⟨kind, span⟩ : Shape).ReadsFrom raw := by
  unfold templateKind? at h
  split at h
  · cases h
    intro text isStatic
    cases isStatic
  · split at h
    · rename_i decoded
      cases h
      intro text isStatic
      cases isStatic
      exact ⟨raw, List.infix_refl raw, decoded⟩
    · cases h

theorem term?_readsFrom {x : CodePoint} {t : Text} {n : Nat} {kind : ShapeKind}
    (h : term? x t = some (n, kind)) (span : Span) : (⟨kind, span⟩ : Shape).ReadsFrom (x :: t) := by
  have inside (m : Nat) : (x :: t).take m <:+: x :: t := (List.take_prefix m _).isInfix
  unfold term? at h
  split at h
  · simp only [Option.bind_eq_bind, Option.bind_eq_some_iff, Option.pure_def, Option.some.injEq,
      Prod.mk.injEq] at h
    obtain ⟨m, _, kind', isString, _, rfl⟩ := h
    exact (stringKind?_readsFrom isString span).mono (inside m)
  · split at h
    · simp only [Option.bind_eq_bind, Option.bind_eq_some_iff, Option.pure_def,
        Option.some.injEq, Prod.mk.injEq] at h
      obtain ⟨m, _, kind', isTemplate, _, rfl⟩ := h
      exact (templateKind?_readsFrom isTemplate span).mono (inside (m + 1))
    · split at h
      · cases h
        intro text isStatic
        cases isStatic
      · cases h

/-- The terms among the tokens of a text read from it. -/
theorem tokens?_readsFrom {c : Cursor} {tokens : List Token} (h : tokens? c = some tokens)
    {s : Shape} (member : Token.term s ∈ tokens) : s.ReadsFrom c.rest := by
  rw [tokens?] at h
  split at h
  rename_i d upto _
  have inside := upto.suffix.isInfix
  split at h
  · cases h
    cases member
  rename_i x t hr
  have next := Cursor.past_of_cons hr
  have shorter := (upto.trans_past next).length_lt
  have behind {more : List Token} (found : tokens? (d.advance 1) = some more)
      (isIn : Token.term s ∈ more) : s.ReadsFrom c.rest :=
    (tokens?_readsFrom found isIn).mono (next.upto.suffix.isInfix.trans inside)
  dsimp only at h
  split at h
  · obtain ⟨more, found, rfl⟩ := Option.map_eq_some_iff.1 h
    exact behind found (by simpa using member)
  · obtain ⟨more, found, rfl⟩ := Option.map_eq_some_iff.1 h
    exact behind found (by simpa using member)
  · split at h
    · obtain ⟨more, found, rfl⟩ := Option.map_eq_some_iff.1 h
      exact behind found (by simpa using member)
    · split at h
      · cases h
      rename_i n kind isTerm
      have bounds := term?_bounds isTerm
      have past : d.Past (d.advance n) :=
        Cursor.past_advance bounds.1 (by rw [hr]; exact bounds.2)
      have shorter' := (upto.trans_past past).length_lt
      obtain ⟨more, found, rfl⟩ := Option.map_eq_some_iff.1 h
      obtain isTerm' | member := List.mem_cons.1 member
      · cases isTerm'
        rw [hr] at inside
        exact (term?_readsFrom isTerm _).mono inside
      · exact (tokens?_readsFrom found member).mono (past.upto.suffix.isInfix.trans inside)
termination_by c.rest.length

/-! ## Terms -/

theorem ofGroup?_staticText? {b : Bracket} {opening closing : Span} {items : List Item}
    {s : Shape} (h : ofGroup? b opening closing items = some s) : s.staticText? = none := by
  unfold ofGroup? at h
  split at h
  · cases b <;> cases h <;> rfl
  · cases h

/-- Grouping makes no term that stands for a fixed text: one is among what was read, or
among the tokens. -/
theorem group?_staticText? {outer : List Frame} {items made : List Item} {tokens : List Token}
    (h : group? outer items tokens = some made) {s : Shape} (member : Item.term s ∈ made)
    (static : s.staticText? ≠ none) :
    Token.term s ∈ tokens ∨ Item.term s ∈ items ∨ ∃ f ∈ outer, Item.term s ∈ f.items := by
  fun_induction group? outer items tokens with
  | case1 outer items closed =>
    cases h
    exact .inr (.inl (List.mem_reverse.1 member))
  | case2 | case4 | case7 | case9 | case10 => cases h
  | case3 outer items shape rest ih =>
    obtain inTokens | inItems | inFrames := ih h
    · exact .inl (List.mem_cons_of_mem _ inTokens)
    · obtain same | inItems := List.mem_cons.1 inItems
      · cases same
        exact .inl List.mem_cons_self
      · exact .inr (.inl inItems)
    · exact .inr (.inr inFrames)
  | case5 outer items rest isInside ih =>
    obtain inTokens | inItems | inFrames := ih h
    · exact .inl (List.mem_cons_of_mem _ inTokens)
    · exact .inr (.inl ((List.mem_cons.1 inItems).resolve_left (by simp)))
    · exact .inr (.inr inFrames)
  | case6 outer items b mark rest ih =>
    obtain inTokens | inItems | ⟨f, inOuter, inFrame⟩ := ih h
    · exact .inl (List.mem_cons_of_mem _ inTokens)
    · cases inItems
    · obtain rfl | inOuter := List.mem_cons.1 inOuter
      · exact .inr (.inl inFrame)
      · exact .inr (.inr ⟨f, inOuter, inFrame⟩)
  | case8 items mark rest f frames shape isGroup ih =>
    obtain inTokens | inItems | ⟨g, inFrames, inFrame⟩ := ih h
    · exact .inl (List.mem_cons_of_mem _ inTokens)
    · obtain same | inItems := List.mem_cons.1 inItems
      · cases same
        exact absurd (ofGroup?_staticText? isGroup) static
      · exact .inr (.inr ⟨f, List.mem_cons_self, inItems⟩)
    · exact .inr (.inr ⟨g, List.mem_cons_of_mem _ inFrames, inFrame⟩)

/-- The fixed text of an expression is what a literal in it is decoded to. -/
theorem parse_readsFrom {text : Text} {s : Shape} (h : parse text = some s) :
    s.ReadsFrom text := by
  intro fixed isStatic
  simp only [parse, Option.bind_eq_bind, Option.bind_eq_some_iff] at h
  obtain ⟨tokens, isTokens, items, isGrouped, isShape⟩ := h
  have static : s.staticText? ≠ none := by
    rw [isStatic]
    exact Option.some_ne_none fixed
  have member : Item.term s ∈ items := by
    unfold ofItems? at isShape
    split at isShape
    · cases isShape
      exact List.mem_cons_self
    · split at isShape
      · cases isShape
        exact absurd rfl static
      · cases isShape
    · cases isShape
  obtain inTokens | inItems | ⟨f, inOuter, _⟩ := group?_staticText? isGrouped member static
  · exact tokens?_readsFrom isTokens inTokens fixed isStatic
  · cases inItems
  · cases inOuter

end StyleBinding.Shape
