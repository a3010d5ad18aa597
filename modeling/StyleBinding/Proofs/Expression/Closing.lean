import StyleBinding.Proofs.Expression.Shape

/-!
# When an expression is an array

An expression is an array if and only if its first token opens a square bracket
and the bracket that leaves none open is its last token. `closing?` finds that
bracket with a stack of brackets alone, without the items that groups are made
of. An expression of two or more terms is no array; that more tokens make more
terms is `group?_length`.
-/

namespace StyleBinding.Shape

/-- Where the bracket starts that leaves none of the given brackets open, when it
is the last token. -/
def closing? (opened : List Bracket) : List Token → Option Nat
  | [] => none
  | .term _ :: rest | .comma :: rest => closing? opened rest
  | .opener b _ :: rest => closing? (b :: opened) rest
  | .closer b mark :: rest =>
    match opened with
    | [] => none
    | o :: outer =>
      if o = b then
        if outer.isEmpty then if rest.isEmpty then some mark.start else none
        else closing? outer rest
      else none

/-! ## Terms -/

/-- The number of items at the outermost level, once the groups are closed that
are open. `n` counts those at the present level. -/
def outermostLength : List Frame → Nat → Nat
  | [], n => n
  | f :: frames, _ => outermostLength frames (f.items.length + 1)

theorem outermostLength_mono (outer : List Frame) {m n : Nat} (le : m ≤ n) :
    outermostLength outer m ≤ outermostLength outer n := by
  cases outer with
  | nil => exact le
  | cons f frames => exact Nat.le_refl _

/-- Grouping loses no items. -/
theorem group?_length {outer : List Frame} {items made : List Item} {tokens : List Token}
    (h : group? outer items tokens = some made) :
    outermostLength outer items.length ≤ made.length := by
  induction tokens generalizing outer items with
  | nil =>
    rw [group?] at h
    split at h
    · rename_i isEmpty
      rw [List.isEmpty_iff.1 isEmpty]
      cases h
      exact Nat.le_of_eq List.length_reverse.symm
    · cases h
  | cons token rest ih =>
    have grown := outermostLength_mono outer (Nat.le_succ items.length)
    cases token with
    | term =>
      rw [group?] at h
      exact Nat.le_trans grown (ih h)
    | comma =>
      rw [group?] at h
      split at h
      · cases h
      · exact Nat.le_trans grown (ih h)
    | opener =>
      rw [group?] at h
      exact Nat.le_trans grown (ih h)
    | closer =>
      rw [group?.eq_def] at h
      dsimp only at h
      split at h
      · cases h
      split at h
      · split at h
        · have behind := ih h
          exact behind
        · cases h
      · cases h

/-- Two items or more are no array. -/
theorem ofItems?_of_length {items : List Item} (two : 2 ≤ items.length) :
    (ofItems? items).bind (·.arrayInner?) = none := by
  unfold ofItems?
  split
  · simp only [List.length_singleton] at two
    omega
  · split <;> rfl
  · rfl

/-- What the terms of tokens stand for, if they are one array. -/
def arrayOf? (outer : List Frame) (items : List Item) (tokens : List Token) : Option Span :=
  ((group? outer items tokens).bind ofItems?).bind (·.arrayInner?)

/-- A term with anything behind it is no array, and alone it is one if it is one. -/
theorem arrayOf?_of_term (shape : Shape) (tokens : List Token) :
    arrayOf? [] [.term shape] tokens = if tokens.isEmpty then shape.arrayInner? else none := by
  obtain _ | ⟨token, rest⟩ := tokens
  · rfl
  have several {outer : List Frame} {items : List Item}
      (two : 2 ≤ outermostLength outer items.length) : arrayOf? outer items rest = none := by
    unfold arrayOf?
    cases grouped : group? outer items rest with
    | none => rfl
    | some made => exact ofItems?_of_length (Nat.le_trans two (group?_length grouped))
  cases token with
  | term => exact several (Nat.le_refl 2)
  | comma => rfl
  | opener => exact several (Nat.le_refl 2)
  | closer => rfl

/-- A group is an array if and only if its brackets are square. -/
theorem ofGroup?_array_iff {b : Bracket} {opening closing inner : Span} {items : List Item}
    {shape : Shape} (made : ofGroup? b opening closing items = some shape) :
    shape.arrayInner? = some inner ↔
      b = .square ∧ opening.stop = inner.start ∧ closing.start = inner.stop := by
  rw [ofGroup?] at made
  split at made
  · cases b with
    | round | curly =>
      cases made
      simp [arrayInner?]
    | square =>
      cases made
      obtain ⟨start, stop, _⟩ := inner
      simp [arrayInner?]
  · cases made

/-- Tokens behind an opening mark at the outermost level are an array if and only
if the mark is square and they are closed by the last of them. -/
theorem arrayOf?_eq_some_iff {low high : Nat} {outer : List Frame} {items : List Item}
    {tokens : List Token} {b : Bracket} {mark inner : Span} (laid : Token.Laid low tokens high)
    (above : ∀ f ∈ outer, f.mark.stop ≤ low) (last : outer.getLast? = some ⟨b, mark, []⟩) :
    arrayOf? outer items tokens = some inner ↔ b = .square ∧ mark.stop = inner.start ∧
      closing? (outer.map (·.bracket)) tokens = some inner.stop := by
  have nonempty {frames : List Frame} (last : frames.getLast? = some ⟨b, mark, []⟩) :
      frames.isEmpty = false := by
    cases frames with
    | nil => cases last
    | cons => rfl
  induction laid generalizing outer items with
  | nil =>
    rw [arrayOf?, group?, nonempty last, closing?]
    simp
  | comma _ ih =>
    rw [arrayOf?, group?, nonempty last, closing?]
    exact ih above last
  | @term low _ shape _ _ le _ ih =>
    rw [arrayOf?, group?, closing?]
    have := shape.span.le
    exact ih (fun f member => Nat.le_trans (above f member) (by omega)) last
  | @opener low _ o opening _ le _ ih =>
    rw [arrayOf?, group?, closing?]
    have := opening.le
    have above' : ∀ f ∈ ⟨o, opening, items⟩ :: outer, f.mark.stop ≤ opening.stop := by
      intro f member
      rcases List.mem_cons.1 member with rfl | member
      · exact Nat.le_refl _
      · exact Nat.le_trans (above f member) (by omega)
    refine ih above' ?_
    rw [List.getLast?_cons, last]
    rfl
  | @closer low _ o closing rest le _ ih =>
    obtain _ | ⟨f, frames⟩ := outer
    · cases last
    rw [arrayOf?, group?, List.map_cons, closing?]
    by_cases same : f.bracket = o
    · have inOrder := Nat.le_trans (above f List.mem_cons_self) le
      obtain ⟨shape, made, _⟩ := ofGroup?_isSome inOrder o items.reverse
      rw [if_pos same, if_pos same, made, List.isEmpty_map]
      have := closing.le
      cases frames with
      | nil =>
        cases last
        change arrayOf? [] [.term shape] rest = _ ↔ _
        obtain rfl := same
        rw [arrayOf?_of_term, List.isEmpty_nil, if_pos rfl]
        cases rest with
        | nil => simpa using ofGroup?_array_iff made
        | cons => simp
      | cons g frames =>
        rw [List.isEmpty_cons, if_neg Bool.false_ne_true]
        refine ih (fun g member => ?_) ((List.getLast?_cons_cons).symm.trans last)
        exact Nat.le_trans (above g (List.mem_cons_of_mem _ member)) (by omega)
    · rw [if_neg same, if_neg same]
      simp

/-- An expression is an array if and only if its first token opens a square bracket
that its last token closes. -/
theorem parse_array_iff {text : Text} {inner : Span} :
    (parse text).bind (·.arrayInner?) = some inner ↔
      ∃ mark rest, tokens? (.ofSource text) = some (.opener .square mark :: rest) ∧
        mark.stop = inner.start ∧ closing? [.square] rest = some inner.stop := by
  cases isTokens : tokens? (.ofSource text) with
  | none => simp [parse, isTokens]
  | some tokens =>
    have whole : (parse text).bind (·.arrayInner?) = arrayOf? [] [] tokens := by
      rw [parse, isTokens]
      rfl
    rw [whole]
    have laid := tokens?_laid isTokens
    cases laid with
    | nil => simp [arrayOf?, group?, ofItems?]
    | comma => simp [arrayOf?, group?]
    | @term _ _ shape rest noArray =>
      change arrayOf? [] [.term shape] rest = some inner ↔ _
      rw [arrayOf?_of_term, noArray]
      simp
    | closer => simp [arrayOf?, group?]
    | @opener _ _ b mark rest _ laid =>
      have above : ∀ f ∈ [(⟨b, mark, []⟩ : Frame)], f.mark.stop ≤ mark.stop := by simp
      refine (arrayOf?_eq_some_iff laid above rfl).trans ⟨?_, ?_⟩
      · rintro ⟨rfl, starts, closes⟩
        exact ⟨mark, rest, rfl, starts, closes⟩
      · rintro ⟨mark', rest', same, starts, closes⟩
        cases same
        exact ⟨rfl, starts, closes⟩

end StyleBinding.Shape
