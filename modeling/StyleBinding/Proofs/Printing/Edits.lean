import StyleBinding.Document.Print
import StyleBinding.Proofs.Text.Cutting

/-!
# Which edits are taken

Edits are sorted by their start, and applying them takes those that do not start
inside one taken before. When no two edits start together or overlap by halves,
the edits taken in a stretch are the outermost ones that lie in it: those that
start inside no other.
-/

namespace StyleBinding

namespace Edit

/-! ## Sorting -/

theorem insert_perm (e : Edit) (edits : List Edit) : (insert e edits).Perm (e :: edits) := by
  induction edits with
  | nil => exact .refl _
  | cons f rest ih =>
    rw [insert]
    split
    · exact (ih.cons f).trans (.swap e f rest)
    · exact .refl _

theorem sort_perm (edits : List Edit) : (sort edits).Perm edits := by
  induction edits with
  | nil => exact .refl _
  | cons e rest ih => exact (insert_perm e (sort rest)).trans (ih.cons e)

theorem start_le_of_before {e f : Edit} (h : e.before f = true) :
    e.region.start ≤ f.region.start := by
  simp only [before, Bool.or_eq_true, decide_eq_true_eq, Bool.and_eq_true, beq_iff_eq] at h
  omega

theorem start_le_of_not_before {e f : Edit} (h : ¬ f.before e = true) :
    e.region.start ≤ f.region.start := by
  simp only [before, Bool.or_eq_true, decide_eq_true_eq, Bool.and_eq_true, beq_iff_eq] at h
  omega

theorem insert_ordered {e : Edit} {edits : List Edit}
    (h : edits.Pairwise fun f g => f.region.start ≤ g.region.start) :
    (insert e edits).Pairwise fun f g => f.region.start ≤ g.region.start := by
  induction h with
  | nil => exact List.pairwise_singleton _ e
  | @cons f rest first ordered ih =>
    rw [insert]
    split
    · rename_i fBefore
      refine List.pairwise_cons.2 ⟨fun g member => ?_, ih⟩
      rcases List.mem_cons.1 ((insert_perm e rest).mem_iff.1 member) with rfl | member
      · exact start_le_of_before fBefore
      · exact first g member
    · rename_i notBefore
      have le := start_le_of_not_before notBefore
      refine List.pairwise_cons.2 ⟨fun g member => ?_, List.pairwise_cons.2 ⟨first, ordered⟩⟩
      rcases List.mem_cons.1 member with rfl | member
      · exact le
      · exact Nat.le_trans le (first g member)

/-- Sorted edits are in the order of their starts. -/
theorem sort_ordered (edits : List Edit) :
    (sort edits).Pairwise fun e f => e.region.start ≤ f.region.start := by
  induction edits with
  | nil => exact .nil
  | cons e rest ih => exact insert_ordered ih

/-! ## The edits taken in a stretch -/

section Taken

variable (source : Text) (stretch : Span)

/-- The edits that are taken in a stretch from `cursor` on. -/
def taken : List Edit → Nat → List Edit
  | [], _ => []
  | e :: rest, cursor =>
    if e.isSkipped source stretch cursor then taken rest cursor
    else e :: taken rest e.region.stop

variable {source stretch}

theorem mem_of_mem_taken {edits : List Edit} {cursor : Nat} {e : Edit}
    (h : e ∈ taken source stretch edits cursor) : e ∈ edits := by
  induction edits generalizing cursor with
  | nil => cases h
  | cons f rest ih =>
    rw [taken] at h
    split at h
    · exact List.mem_cons_of_mem _ (ih h)
    · rcases List.mem_cons.1 h with rfl | h
      · exact List.mem_cons_self
      · exact List.mem_cons_of_mem _ (ih h)

/-- An edit that is left out further on is left out before. -/
theorem isSkipped_mono {e : Edit} {cursor cursor' : Nat} (le : cursor ≤ cursor')
    (h : e.isSkipped source stretch cursor' = false) :
    e.isSkipped source stretch cursor = false := by
  simp only [isSkipped, Bool.or_eq_false_iff, decide_eq_false_iff_not] at h ⊢
  exact ⟨⟨by omega, h.1.2⟩, h.2⟩

theorem le_start_of_not_skipped {e : Edit} {cursor : Nat}
    (h : e.isSkipped source stretch cursor = false) : cursor ≤ e.region.start := by
  simp only [isSkipped, Bool.or_eq_false_iff, decide_eq_false_iff_not] at h
  omega

/-- What is taken from a place on would not be left out there. -/
theorem not_skipped_of_mem_taken {edits : List Edit} {cursor : Nat} {e : Edit}
    (h : e ∈ taken source stretch edits cursor) : e.isSkipped source stretch cursor = false := by
  induction edits generalizing cursor with
  | nil => cases h
  | cons f rest ih =>
    rw [taken] at h
    split at h
    · exact ih h
    · rename_i notSkipped
      have notSkipped := eq_false_of_ne_true notSkipped
      rcases List.mem_cons.1 h with rfl | h
      · exact notSkipped
      · have := le_start_of_not_skipped notSkipped
        exact isSkipped_mono (Nat.le_trans this f.region.le) (ih h)

/-- Taken edits follow one another. -/
theorem taken_ordered (edits : List Edit) (cursor : Nat) :
    (taken source stretch edits cursor).Pairwise fun e f => e.region.stop ≤ f.region.start := by
  induction edits generalizing cursor with
  | nil => exact .nil
  | cons e rest ih =>
    rw [taken]
    split
    · exact ih cursor
    · refine List.pairwise_cons.2 ⟨fun f member => ?_, ih _⟩
      exact le_start_of_not_skipped (not_skipped_of_mem_taken member)

/-! ## Applying edits -/

theorem apply_congr {produce produce' : Replacement → Except PrintError Text}
    {edits : List Edit} {cursor : Nat}
    (h : ∀ e ∈ taken source stretch edits cursor,
      produce e.replacement = produce' e.replacement) :
    apply source produce stretch edits cursor = apply source produce' stretch edits cursor := by
  induction edits generalizing cursor with
  | nil => rfl
  | cons e rest ih =>
    rw [taken] at h
    rw [apply, apply]
    split at h
    · rename_i skipped
      rw [if_pos skipped, if_pos skipped, ih h]
    · rename_i notSkipped
      rw [if_neg notSkipped, if_neg notSkipped, h e List.mem_cons_self,
        ih fun f member => h f (List.mem_cons_of_mem _ member)]

/-- A stretch prints as its text with the taken edits in it replaced. -/
theorem apply_eq_ok {produce : Replacement → Except PrintError Text} {form : Edit → Text}
    {edits : List Edit} {cursor : Nat}
    (h : ∀ e ∈ taken source stretch edits cursor, produce e.replacement = .ok (form e)) :
    apply source produce stretch edits cursor =
      .ok (source.splice cursor stretch.stop
        ((taken source stretch edits cursor).map fun e => (e.region, form e))) := by
  induction edits generalizing cursor with
  | nil => rfl
  | cons e rest ih =>
    rw [taken] at h ⊢
    rw [apply]
    split at h
    · rename_i skipped
      rw [if_pos skipped, if_pos skipped, ih h]
    · rename_i notSkipped
      rw [if_neg notSkipped, if_neg notSkipped, h e List.mem_cons_self]
      dsimp only
      rw [ih fun f member => h f (List.mem_cons_of_mem _ member)]
      rfl

end Taken

/-! ## Outermost edits -/

/-- Two edits that do not start together nor overlap by halves. -/
structure Compatible (e f : Edit) : Prop where
  start_ne : e.region.start ≠ f.region.start
  inside : e.region.start < f.region.start → f.region.start < e.region.stop →
    f.region.stop ≤ e.region.stop
  contains : f.region.start < e.region.start → e.region.start < f.region.stop →
    e.region.stop ≤ f.region.stop

theorem Compatible.symm {e f : Edit} (h : e.Compatible f) : f.Compatible e :=
  ⟨h.start_ne.symm, h.contains, h.inside⟩

/-- Whether an edit starts inside none of the given ones. -/
def isOutermost (edits : List Edit) (e : Edit) : Bool :=
  edits.all fun f => !(f.region.start < e.region.start && e.region.start < f.region.stop)

theorem isOutermost_iff {edits : List Edit} {e : Edit} :
    e.isOutermost edits = true ↔
      ∀ f ∈ edits, f.region.start < e.region.start → f.region.stop ≤ e.region.start := by
  simp only [isOutermost, List.all_eq_true, Bool.not_eq_true', Bool.and_eq_false_iff,
    decide_eq_false_iff_not]
  constructor
  · intro h f member lt
    have := h f member
    omega
  · intro h f member
    have := h f member
    omega

/-- A stretch takes no notice of the edits that are left out from its start on. -/
theorem taken_filter {source : Text} {stretch : Span} {edits : List Edit} {cursor : Nat}
    (le : stretch.start ≤ cursor) :
    taken source stretch (edits.filter fun e => !e.isSkipped source stretch stretch.start) cursor =
      taken source stretch edits cursor := by
  induction edits generalizing cursor with
  | nil => rfl
  | cons e rest ih =>
    cases skipped : e.isSkipped source stretch stretch.start with
    | true =>
      have further : e.isSkipped source stretch cursor = true := by
        refine eq_true_of_ne_false fun notSkipped => ?_
        rw [isSkipped_mono le notSkipped] at skipped
        cases skipped
      rw [List.filter_cons_of_neg (by simp [skipped]), taken, if_pos further, ih le]
    | false =>
      rw [List.filter_cons_of_pos (by simp [skipped]), taken, taken, ih le]
      split
      · rfl
      · rename_i notSkipped
        have := le_start_of_not_skipped (eq_false_of_ne_true notSkipped)
        have := e.region.le
        rw [ih (by omega)]

/-- Of edits none of which is left out from the start of a stretch on, the outermost
ones are taken. `front` holds the edits that have been looked at, and `cursor` is
the furthest end of any of them. -/
theorem taken_eq_filter {source : Text} {stretch : Span} {front edits : List Edit} {cursor : Nat}
    (within : ∀ e ∈ edits, e.isSkipped source stretch stretch.start = false)
    (ordered : (front ++ edits).Pairwise fun e f => e.region.start ≤ f.region.start)
    (compatible : (front ++ edits).Pairwise Compatible)
    (above : ∀ f ∈ front, f.region.stop ≤ cursor)
    (reached : cursor ≤ stretch.start ∨ ∃ f ∈ front, f.region.stop = cursor) :
    taken source stretch edits cursor = edits.filter (isOutermost (front ++ edits)) := by
  induction edits generalizing front cursor with
  | nil => rfl
  | cons e rest ih =>
    have pair := List.pairwise_append.1 compatible
    have order := List.pairwise_append.1 ordered
    have restCompatible := List.pairwise_cons.1 pair.2.1
    have restOrder := List.pairwise_cons.1 order.2.1
    have again : front ++ e :: rest = (front ++ [e]) ++ rest := by simp
    obtain ⟨inside, restInside⟩ := List.forall_mem_cons.1 within
    have start : stretch.start ≤ e.region.start := le_start_of_not_skipped inside
    have notEnd : e.isSkipped source stretch cursor = decide (e.region.start < cursor) := by
      unfold isSkipped at inside ⊢
      rw [Bool.or_assoc, Bool.or_eq_false_iff] at inside
      rw [Bool.or_assoc, inside.2, Bool.or_false]
    have outermost : e.isOutermost (front ++ e :: rest) = !decide (e.region.start < cursor) := by
      rw [Bool.eq_iff_iff, isOutermost_iff, Bool.not_eq_true', decide_eq_false_iff_not]
      constructor
      · intro h lt
        rcases reached with le | ⟨f, member, stop⟩
        · omega
        · have ne := (pair.2.2 f member e List.mem_cons_self).start_ne
          have le := order.2.2 f member e List.mem_cons_self
          have := h f (List.mem_append_left _ member) (by omega)
          omega
      · intro notLt f member lt
        rcases List.mem_append.1 member with member | member
        · have := above f member
          omega
        · rcases List.mem_cons.1 member with rfl | member
          · omega
          · have := restOrder.1 f member
            omega
    rw [taken, notEnd, List.filter_cons, outermost, again]
    by_cases lt : e.region.start < cursor
    · rw [decide_eq_true lt, if_pos rfl, Bool.not_true, if_neg Bool.false_ne_true]
      have fits : e.region.stop ≤ cursor := by
        rcases reached with le | ⟨f, member, stop⟩
        · omega
        · have compat := pair.2.2 f member e List.mem_cons_self
          have := order.2.2 f member e List.mem_cons_self
          have := compat.start_ne
          have := compat.inside (by omega) (by omega)
          omega
      refine ih restInside (again ▸ ordered) (again ▸ compatible) (fun f member => ?_) ?_
      · rcases List.mem_append.1 member with member | member
        · exact above f member
        · rw [List.mem_singleton.1 member]
          exact fits
      · exact reached.imp_right fun ⟨f, member, stop⟩ => ⟨f, List.mem_append_left _ member, stop⟩
    · rw [decide_eq_false lt, if_neg Bool.false_ne_true, Bool.not_false, if_pos rfl]
      refine congrArg (e :: ·) (ih restInside (again ▸ ordered) (again ▸ compatible)
        (fun f member => ?_) (.inr ⟨e, by simp, rfl⟩))
      rcases List.mem_append.1 member with member | member
      · have := above f member
        have := e.region.le
        omega
      · rw [List.mem_singleton.1 member]

end Edit

end StyleBinding
