import StyleBinding.Expression.Shape

/-!
# Where the parts of an expression lie

The tokens of an expression lie one behind another in its text. So the marks of
a group are in order when it is closed: a sequence of tokens has a shape unless
its brackets do not match or a comma stands outside of them. What lies between
the brackets of an array lies in the text.
-/

namespace StyleBinding.Shape

/-- Tokens that lie one behind another between two offsets. A term that is a token
is no array. -/
inductive Token.Laid : Nat → List Token → Nat → Prop
  | nil {low high : Nat} : low ≤ high → Laid low [] high
  | comma {low high : Nat} {rest : List Token} : Laid low rest high → Laid low (.comma :: rest) high
  | term {low high : Nat} {shape : Shape} {rest : List Token} :
    shape.arrayInner? = none → low ≤ shape.span.start → Laid shape.span.stop rest high →
    Laid low (.term shape :: rest) high
  | opener {low high : Nat} {b : Bracket} {mark : Span} {rest : List Token} :
    low ≤ mark.start → Laid mark.stop rest high → Laid low (.opener b mark :: rest) high
  | closer {low high : Nat} {b : Bracket} {mark : Span} {rest : List Token} :
    low ≤ mark.start → Laid mark.stop rest high → Laid low (.closer b mark :: rest) high

namespace Token.Laid

variable {low low' high : Nat} {tokens : List Token}

theorem le (h : Laid low tokens high) : low ≤ high := by
  induction h with
  | nil le => exact le
  | comma _ ih => exact ih
  | @term _ _ shape _ _ le _ ih => have := shape.span.le; omega
  | @opener _ _ _ mark _ le _ ih | @closer _ _ _ mark _ le _ ih => have := mark.le; omega

theorem mono (h : Laid low tokens high) (le : low' ≤ low) : Laid low' tokens high := by
  induction h with
  | nil above => exact .nil (Nat.le_trans le above)
  | comma _ ih => exact .comma (ih le)
  | term noArray above rest => exact .term noArray (Nat.le_trans le above) rest
  | opener above rest => exact .opener (Nat.le_trans le above) rest
  | closer above rest => exact .closer (Nat.le_trans le above) rest

end Token.Laid

theorem term?_not_array {x : CodePoint} {t : Text} {n : Nat} {kind : ShapeKind} {span : Span}
    (h : term? x t = some (n, kind)) : (⟨kind, span⟩ : Shape).arrayInner? = none := by
  unfold term? at h
  split at h
  · simp only [Option.bind_eq_bind, Option.bind_eq_some_iff, Option.pure_def, Option.some.injEq,
      Prod.mk.injEq] at h
    obtain ⟨m, _, kind', isString, _, rfl⟩ := h
    unfold stringKind? at isString
    split at isString <;> cases isString
    rfl
  · split at h
    · simp only [Option.bind_eq_bind, Option.bind_eq_some_iff, Option.pure_def,
        Option.some.injEq, Prod.mk.injEq] at h
      obtain ⟨m, _, kind', isTemplate, _, rfl⟩ := h
      unfold templateKind? at isTemplate
      split at isTemplate
      · cases isTemplate
        rfl
      · split at isTemplate <;> cases isTemplate
        rfl
    · split at h
      · cases h
        rfl
      · cases h

/-- The tokens of a text lie one behind another in it. -/
theorem tokens?_laid {c : Cursor} {tokens : List Token} (h : tokens? c = some tokens) :
    Token.Laid c.offset tokens (c.offset + c.rest.length) := by
  rw [tokens?] at h
  split at h
  rename_i d upto _
  have first := upto.offset_le
  have total := upto.offset_add_length
  split at h
  · cases h
    exact .nil (Nat.le_add_right _ _)
  rename_i x t hr
  have next := Cursor.past_of_cons hr
  have shorter := (upto.trans_past next).length_lt
  have behind {more : List Token} (found : tokens? (d.advance 1) = some more) :
      Token.Laid (d.offset + 1) more (c.offset + c.rest.length) := by
    have laid := tokens?_laid found
    rwa [next.upto.offset_add_length, total] at laid
  dsimp only at h
  split at h
  · obtain ⟨more, found, rfl⟩ := Option.map_eq_some_iff.1 h
    exact .opener first (behind found)
  · obtain ⟨more, found, rfl⟩ := Option.map_eq_some_iff.1 h
    exact .closer first (behind found)
  · split at h
    · obtain ⟨more, found, rfl⟩ := Option.map_eq_some_iff.1 h
      exact .comma ((behind found).mono (by omega))
    · split at h
      · cases h
      rename_i n kind isTerm
      have bounds := term?_bounds isTerm
      have past : d.Past (d.advance n) :=
        Cursor.past_advance bounds.1 (by rw [hr]; exact bounds.2)
      have shorter' := (upto.trans_past past).length_lt
      obtain ⟨more, found, rfl⟩ := Option.map_eq_some_iff.1 h
      have laid := tokens?_laid found
      rw [past.upto.offset_add_length, total] at laid
      exact .term (term?_not_array isTerm) first laid
termination_by c.rest.length

/-! ## Grouping -/

/-- Whether the brackets among tokens match those that are open and commas stand
between brackets only. -/
def balanced (opened : List Bracket) : List Token → Bool
  | [] => opened.isEmpty
  | .term _ :: rest => balanced opened rest
  | .comma :: rest => !opened.isEmpty && balanced opened rest
  | .opener b _ :: rest => balanced (b :: opened) rest
  | .closer b _ :: rest =>
    match opened with
    | [] => false
    | o :: outer => o = b && balanced outer rest

/-- Marks in order make a group. -/
theorem ofGroup?_isSome {opening closing : Span} (h : opening.stop ≤ closing.start)
    (b : Bracket) (items : List Item) : ∃ shape, ofGroup? b opening closing items = some shape ∧
      ∀ inner, shape.arrayInner? = some inner → inner.stop = closing.start := by
  rw [ofGroup?, dif_pos h]
  cases b with
  | round | curly => exact ⟨_, rfl, by simp [arrayInner?]⟩
  | square =>
    refine ⟨_, rfl, ?_⟩
    rintro inner ⟨⟩
    rfl

/-- Tokens of a text are grouped if and only if they are balanced: no group has
its marks in the wrong order. -/
theorem group?_isSome {low high : Nat} {outer : List Frame} {items : List Item}
    {tokens : List Token} (laid : Token.Laid low tokens high)
    (above : ∀ f ∈ outer, f.mark.stop ≤ low) :
    (group? outer items tokens).isSome = balanced (outer.map (·.bracket)) tokens := by
  induction laid generalizing outer items with
  | nil =>
    rw [group?, balanced, List.isEmpty_map]
    cases outer.isEmpty <;> rfl
  | comma _ ih =>
    rw [group?, balanced, List.isEmpty_map]
    cases outer.isEmpty with
    | true => rfl
    | false => exact ih above
  | @term low _ shape _ _ le _ ih =>
    rw [group?, balanced]
    have := shape.span.le
    exact ih fun f member => Nat.le_trans (above f member) (by omega)
  | @opener low _ b mark _ le _ ih =>
    rw [group?, balanced]
    have := mark.le
    refine ih fun f member => ?_
    rcases List.mem_cons.1 member with rfl | member
    · exact Nat.le_refl _
    · exact Nat.le_trans (above f member) (by omega)
  | @closer low _ b mark _ le _ ih =>
    rw [group?.eq_def, balanced.eq_def]
    cases outer with
    | nil => rfl
    | cons f frames =>
      simp only [List.map_cons]
      by_cases same : f.bracket = b
      · have inOrder := Nat.le_trans (above f List.mem_cons_self) le
        obtain ⟨shape, made, _⟩ := ofGroup?_isSome inOrder b items.reverse
        have := mark.le
        rw [if_pos same, decide_eq_true same, Bool.true_and]
        simp only [made]
        exact ih fun g member =>
          Nat.le_trans (above g (List.mem_cons_of_mem _ member)) (by omega)
      · rw [if_neg same, decide_eq_false same]
        rfl

/-! ## Arrays -/

/-- What lies between the brackets of a shape ends in front of an offset. -/
def InnerUpto (high : Nat) (s : Shape) : Prop := ∀ inner, s.arrayInner? = some inner →
  inner.stop ≤ high

/-- Every term among items keeps its inside in front of an offset. -/
def Item.InnerUpto (high : Nat) (items : List Item) : Prop :=
  ∀ s, Item.term s ∈ items → s.InnerUpto high

theorem Item.InnerUpto.cons {high : Nat} {items : List Item} {s : Shape}
    (h : Item.InnerUpto high items) (k : s.InnerUpto high) :
    Item.InnerUpto high (.term s :: items) := by
  intro t member
  rcases List.mem_cons.1 member with same | member
  · cases same
    exact k
  · exact h t member

theorem group?_innerUpto {low high : Nat} {outer : List Frame} {items made : List Item}
    {tokens : List Token} (laid : Token.Laid low tokens high)
    (inItems : Item.InnerUpto high items) (inFrames : ∀ f ∈ outer, Item.InnerUpto high f.items)
    (h : group? outer items tokens = some made) : Item.InnerUpto high made := by
  induction laid generalizing outer items with
  | nil =>
    rw [group?] at h
    split at h
    · cases h
      intro s member
      exact inItems s (List.mem_reverse.1 member)
    · cases h
  | comma _ ih =>
    rw [group?] at h
    split at h
    · cases h
    · refine ih ?_ inFrames h
      intro s member
      rcases List.mem_cons.1 member with same | member
      · cases same
      · exact inItems s member
  | term noArray _ _ ih =>
    rw [group?] at h
    refine ih (inItems.cons fun inner isInner => ?_) inFrames h
    rw [noArray] at isInner
    cases isInner
  | opener _ _ ih =>
    rw [group?] at h
    refine ih (fun s member => by cases member) (fun f member => ?_) h
    rcases List.mem_cons.1 member with rfl | member
    · exact inItems
    · exact inFrames f member
  | @closer low _ b mark rest le tail ih =>
    rw [group?.eq_def] at h
    dsimp only at h
    split at h
    · cases h
    rename_i f frames
    split at h
    · split at h
      · rename_i shape isGroup
        refine ih ((inFrames f List.mem_cons_self).cons ?_)
          (fun g member => inFrames g (List.mem_cons_of_mem _ member)) h
        by_cases inOrder : f.mark.stop ≤ mark.start
        · obtain ⟨shape', isGroup', stop⟩ := ofGroup?_isSome inOrder b items.reverse
          obtain rfl := Option.some.inj (isGroup.symm.trans isGroup')
          intro inner isInner
          have := stop inner isInner
          have := mark.le
          have := tail.le
          omega
        · rw [ofGroup?, dif_neg inOrder] at isGroup
          cases isGroup
      · cases h
    · cases h

/-- The elements of an array lie in the text of the expression. -/
theorem parse_innerUpto {text : Text} {shape : Shape} (h : parse text = some shape) :
    shape.InnerUpto text.length := by
  simp only [parse, Option.bind_eq_bind, Option.bind_eq_some_iff] at h
  obtain ⟨tokens, isTokens, items, isGrouped, isShape⟩ := h
  have laid := tokens?_laid isTokens
  simp only [Cursor.ofSource, Nat.zero_add] at laid
  have within := group?_innerUpto laid (fun s member => by cases member)
    (fun f member => by cases member) isGrouped
  unfold ofItems? at isShape
  split at isShape
  · cases isShape
    exact within shape List.mem_cons_self
  · split at isShape
    · cases isShape
      intro inner isInner
      cases isInner
    · cases isShape
  · cases isShape

end StyleBinding.Shape
