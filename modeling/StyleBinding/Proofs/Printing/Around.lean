import StyleBinding.Proofs.Printing.Nesting
import StyleBinding.Proofs.Printing.Revision

/-!
# Printing around a declaration

No edit reaches into a declaration from in front of it or from behind its path, so a
document prints in three parts: what is in front of the declaration, the declaration up to
the end of its path, and what is behind. The first and the last are what these stretches
print as by themselves. The one in the middle is the keyword, the name that the declaration
has been given, and the literal as it is in the source.
-/

namespace StyleBinding

/-! ## Slices -/

theorem Text.slice_append_slice (t : Text) {l m n : Nat} (lm : l ≤ m) (mn : m ≤ n) :
    t.slice l m ++ t.slice m n = t.slice l n := by
  simp only [slice]
  rw [show n - l = (m - l) + (n - m) by omega, List.take_add, List.drop_drop,
    Nat.add_sub_cancel' lm]

namespace Edit

/-! ## Edits in front of a place and behind it -/

section Parts

variable {source out : Text} {produce : Replacement → Except PrintError Text} {stretch : Span}
  {front back : List Edit} {cursor m : Nat}

/-- Printing looks at no more of a stretch than its end. -/
theorem apply_eq_of_stop {stretch' : Span} (same : stretch.stop = stretch'.stop) :
    apply source produce stretch back cursor = apply source produce stretch' back cursor := by
  induction back generalizing cursor with
  | nil => rw [apply, apply, same]
  | cons e back ih =>
    have skips : e.isSkipped source stretch cursor = e.isSkipped source stretch' cursor := by
      rw [isSkipped, isSkipped, same]
    rw [apply, apply, skips, ih, ih]

/-- Edits that start in front of where printing begins are not carried out. -/
theorem apply_append_of_start_lt (passed : ∀ e ∈ front, e.region.start < cursor) :
    apply source produce stretch (front ++ back) cursor =
      apply source produce stretch back cursor := by
  induction front with
  | nil => rfl
  | cons e front ih =>
    obtain ⟨first, rest⟩ := List.forall_mem_cons.1 passed
    have skipped : e.isSkipped source stretch cursor = true := by
      rw [isSkipped, decide_eq_true first, Bool.true_or, Bool.true_or]
    rw [List.cons_append, apply, if_pos skipped, ih rest]

/-- Edits that end behind a stretch are not carried out in it. -/
theorem apply_append_of_lt_stop (passed : ∀ e ∈ back, stretch.stop < e.region.stop) :
    apply source produce stretch (front ++ back) cursor =
      apply source produce stretch front cursor := by
  have skipped : ∀ e ∈ back, ∀ cursor, e.isSkipped source stretch cursor = true := by
    intro e member cursor
    rw [isSkipped, decide_eq_true (passed e member), Bool.or_true, Bool.true_or]
  induction front generalizing cursor with
  | nil =>
    rw [List.nil_append]
    clear passed
    induction back with
    | nil => rfl
    | cons e back ih =>
      obtain ⟨first, rest⟩ := List.forall_mem_cons.1 skipped
      conv_lhs => rw [apply, if_pos (first cursor)]
      exact ih rest
  | cons e front ih => rw [List.cons_append, apply, apply, ih, ih]

/-- What is printed up to a place that all edits are behind is a copy of the source. -/
theorem exists_of_apply (ok : apply source produce stretch back cursor = .ok out)
    (behind : ∀ e ∈ back, m ≤ e.region.start) (above : cursor ≤ m) (below : m ≤ stretch.stop) :
    ∃ rest, apply source produce stretch back m = .ok rest ∧
      out = source.slice cursor m ++ rest := by
  induction back with
  | nil =>
    cases ok
    exact ⟨_, rfl, (Text.slice_append_slice source above below).symm⟩
  | cons e back ih =>
    obtain ⟨first, others⟩ := List.forall_mem_cons.1 behind
    have same : e.isSkipped source stretch cursor = e.isSkipped source stretch m := by
      rw [isSkipped, isSkipped, decide_eq_false (Nat.not_lt.2 first),
        decide_eq_false (Nat.not_lt.2 (above.trans first))]
    rw [apply] at ok ⊢
    rw [← same]
    split at ok
    · rename_i skipped
      rw [if_pos skipped]
      exact ih ok others
    · rename_i notSkipped
      rw [if_neg notSkipped]
      split at ok
      · cases ok
      rename_i text produced
      split at ok
      · cases ok
      rename_i tail applied
      cases ok
      refine ⟨_, rfl, ?_⟩
      rw [← Text.slice_append_slice source above first, List.append_assoc, List.append_assoc,
        List.append_assoc]

/-- At a place that no edit reaches across, a stretch is printed in two parts. -/
theorem exists_of_apply_append
    (ok : apply source produce stretch (front ++ back) cursor = .ok out)
    (inFront : ∀ e ∈ front, e.region.stop < m) (behind : ∀ e ∈ back, m ≤ e.region.start)
    (above : cursor ≤ m) (below : m ≤ stretch.stop) :
    ∃ before rest, apply source produce (.upTo m) front cursor = .ok before ∧
      apply source produce stretch back m = .ok rest ∧ out = before ++ rest := by
  induction front generalizing cursor out with
  | nil =>
    obtain ⟨rest, applied, split⟩ := exists_of_apply ok behind above below
    exact ⟨source.slice cursor m, rest, rfl, applied, split⟩
  | cons e front ih =>
    obtain ⟨first, others⟩ := List.forall_mem_cons.1 inFront
    have start := e.region.le
    have same : e.isSkipped source (.upTo m) cursor = e.isSkipped source stretch cursor := by
      rw [isSkipped, isSkipped, Span.upTo, decide_eq_false (Nat.not_lt.2 first.le),
        decide_eq_false (Nat.not_lt.2 (first.le.trans below)),
        beq_eq_false_iff_ne.2 (by dsimp only; omega), beq_eq_false_iff_ne.2 (by omega),
        Bool.false_and, Bool.false_and]
    rw [List.cons_append, apply] at ok
    rw [apply, same]
    split at ok
    · rename_i skipped
      rw [if_pos skipped]
      exact ih ok others above
    · rename_i notSkipped
      rw [if_neg notSkipped]
      split at ok
      · cases ok
      rename_i text produced
      split at ok
      · cases ok
      rename_i tail applied
      cases ok
      obtain ⟨before, rest, printed, behind, rfl⟩ := ih applied others first.le
      refine ⟨source.slice cursor e.region.start ++ text ++ before, rest, ?_, behind,
        (List.append_assoc ..).symm⟩
      simp only [printed]

end Parts

end Edit

/-! ## Declarations -/

namespace Document

variable {d d' : Document} {i : ImportDeclaration}

/-- Edits of a revision other than that of a declaration's gap end in front of the
declaration or start behind its path. -/
theorem Revises.edit_clear (r : d'.Revises d) (h : d.Laid) (member : i ∈ d.imports) {e : Edit}
    (memberE : e ∈ d'.changes) :
    e.region = i.gap ∨ e.region.stop < i.span.start ∨ i.path.stop ≤ e.region.start := by
  have laidI := h.declared.laid i member
  rcases List.mem_append.1 memberE with memberE | memberE
  · rcases List.mem_append.1 memberE with memberE | memberE
    · obtain ⟨j, memberJ, isE⟩ := List.mem_filterMap.1 memberE
      have memberJ := r.unbound_mem h memberJ
      have laidJ := h.declared.laid _ memberJ
      rw [j.region_of_edit? isE]
      let Clear (i j : ImportDeclaration) : Prop :=
        j.gap = i.gap ∨ j.span.stop ≤ i.span.start ∨ i.span.stop ≤ j.span.start
      have forward : d.imports.Pairwise Clear := h.declared.ordered.imp fun le => .inr (.inr le)
      have backward : d.imports.Pairwise (flip Clear) :=
        h.declared.ordered.imp fun le => .inr (.inl le)
      have clear : Clear i j.unbound :=
        forward.forall_of_forall_of_flip (fun _ _ => .inl rfl) backward member memberJ
      have gapStart : j.gap.start = j.span.start + 6 := laidJ.gap_start
      have gapStop : j.gap.stop = j.path.start := laidJ.gap_stop
      have pathLt : j.path.start < j.path.stop := laidJ.path_lt
      have pathLe : j.path.stop ≤ j.span.stop := laidJ.path_le
      have ends := laidI.path_le
      rcases clear with same | before | after
      · exact .inl same
      · simp only [ImportDeclaration.unbound] at before
        exact .inr (.inl (by omega))
      · simp only [ImportDeclaration.unbound] at after
        exact .inr (.inr (by omega))
    · obtain ⟨b, memberB, isE⟩ := List.mem_filterMap.1 memberE
      have memberB := r.reset_mem h memberB
      have start : b.span.start < b.region.start := (h.forest.laid _ memberB).start_lt
      have stop : b.region.stop < b.span.stop := (h.forest.laid _ memberB).stop_lt
      have ends := laidI.path_le
      rw [(Element.edit?_eq_some_iff.1 isE).2]
      cases h.declared.clear i member _ memberB with
      | before le => exact .inr (.inl (Nat.lt_of_lt_of_le stop le))
      | inside le _ => exact .inr (.inr (Nat.le_of_lt (Nat.lt_of_le_of_lt le start)))
      | @after m skips le =>
        have behind : i.span.stop ≤ m.offset := skips.upto.offset_le
        have le : m.offset ≤ b.span.start := le
        exact .inr (.inr (by dsimp only; omega))
  · rw [Option.mem_toList, preludeEdit?_eq_some_iff] at memberE
    rw [memberE.2, r.preludePoint_eq]
    exact .inr (.inr (laidI.path_le.trans (h.stop_le_preludePoint member)))

/-- The edit of a gap, between the edits that end in front of its declaration and those that
start behind the path. -/
theorem Revises.edits_around (r : d'.Revises d) (h : d.Laid) (member : i ∈ d'.imports) {e : Edit}
    (isEdit : i.edit? = some e) :
    ∃ front back, d'.edits = front ++ e :: back ∧ (∀ f ∈ front, f.region.stop < i.span.start) ∧
      ∀ f ∈ back, i.path.stop ≤ f.region.start := by
  have laid := h.declared.laid _ (r.unbound_mem h member)
  have gapStart : i.gap.start = i.span.start + 6 := laid.gap_start
  have gapStop : i.gap.stop = i.path.start := laid.gap_stop
  have pathLt : i.path.start < i.path.stop := laid.path_lt
  have gapLe := i.gap.le
  have region := i.region_of_edit? isEdit
  have inEdits : e ∈ d'.edits := mem_edits.2
    (List.mem_append_left _ (List.mem_append_left _ (List.mem_filterMap.2 ⟨i, member, isEdit⟩)))
  obtain ⟨front, back, split⟩ := List.append_of_mem inEdits
  have ordered := Edit.sort_ordered d'.changes
  have apart := r.edits_apart h
  rw [← edits_eq_sort, split] at ordered
  rw [split] at apart
  have clear {f : Edit} (memberF : f ∈ front ++ e :: back) :
      f.region = i.gap ∨ f.region.stop < i.span.start ∨ i.path.stop ≤ f.region.start :=
    r.edit_clear h (r.unbound_mem h member) (mem_edits.1 (split ▸ memberF))
  refine ⟨front, back, split, fun f memberF => ?_, fun f memberF => ?_⟩
  · have first := (List.pairwise_append.1 ordered).2.2 f memberF e List.mem_cons_self
    have apart := (List.pairwise_append.1 apart).2.2 f memberF e List.mem_cons_self
    rw [region] at first apart
    unfold Span.Apart at apart
    rcases clear (List.mem_append_left _ memberF) with same | before | behind
    · rw [same] at apart
      omega
    · exact before
    · omega
  · have first := (List.pairwise_cons.1 (List.pairwise_append.1 ordered).2.1).1 f memberF
    have apart := (List.pairwise_cons.1 (List.pairwise_append.1 apart).2.1).1 f memberF
    rw [region] at first apart
    unfold Span.Apart at apart
    rcases clear (List.mem_append_right _ (List.mem_cons_of_mem _ memberF)) with
      same | before | behind
    · rw [same] at apart
      omega
    · have := f.region.le
      omega
    · exact behind

/-- What a document prints for a declaration up to the end of its path: what stands between
what it prints in front of the declaration and what it prints behind the path. -/
def PrintsImport (d : Document) (i : ImportDeclaration) (text : Text) : Prop :=
  ∃ le before behind, d.printStretch (.upTo i.span.start) = .ok before ∧
    d.printStretch ⟨i.path.stop, d.source.length, le⟩ = .ok behind ∧
    d.print = .ok (before ++ text ++ behind)

/-- A declaration that has been given a name prints as the keyword, the name and the literal
of its path. -/
theorem Revises.printsImport (r : d'.Revises d) (h : d.Laid) (member : i ∈ d'.imports)
    {name : Text} (named : i.givenName = some name) {out : Text} (prints : d'.print = .ok out) :
    d'.PrintsImport i ("import" ++ (" " ++ name ++ " from ") ++ i.path.text d'.source) := by
  have memberI := r.unbound_mem h member
  have laid := h.declared.laid _ memberI
  have gapStart : i.gap.start = i.span.start + 6 := laid.gap_start
  have gapStop : i.gap.stop = i.path.start := laid.gap_stop
  have pathLt : i.path.start < i.path.stop := laid.path_lt
  have gapLe := i.gap.le
  have le : i.path.stop ≤ d'.source.length := by
    rw [r.source]
    exact (laid.path_le.trans (h.stop_le_preludePoint memberI)).trans h.preludePoint_le
  let e : Edit := ⟨i.gap, .literal (" " ++ name ++ " from ")⟩
  obtain ⟨front, back, split, inFront, behind⟩ := r.edits_around h member (e := e)
    (by rw [ImportDeclaration.edit?, named]; rfl)
  have atGap : ∀ f ∈ e :: back, i.span.start ≤ f.region.start := by
    refine List.forall_mem_cons.2 ⟨by dsimp only [e]; omega, fun f memberF => ?_⟩
    have := behind f memberF
    omega
  obtain ⟨produce, literal, printed⟩ : ∃ produce : Replacement → Except PrintError Text,
      (∀ text, produce (.literal text) = .ok text) ∧
      ∀ s, d'.printStretch s = Edit.apply d'.source produce s d'.edits s.start :=
    ⟨Replacement.print _, fun _ => rfl, fun _ => rfl⟩
  have whole : d'.print = d'.printStretch (.upTo d'.source.length) := rfl
  rw [whole, printed, split] at prints
  -- the part in front, and the gap, and the part behind
  obtain ⟨before, rest, isBefore, isRest, isOut⟩ := Edit.exists_of_apply_append prints inFront
    atGap (Nat.zero_le _) (by dsimp only [Span.upTo]; omega)
  have notSkipped : e.isSkipped d'.source (.upTo d'.source.length) i.span.start = false := by
    rw [Edit.isSkipped, Span.upTo, decide_eq_false (by dsimp only [e]; omega),
      decide_eq_false (by dsimp only [e]; omega),
      beq_eq_false_iff_ne.2 (by dsimp only [e]; omega), Bool.false_and]
    rfl
  rw [Edit.apply, notSkipped, if_neg Bool.false_ne_true, literal] at isRest
  dsimp only at isRest
  split at isRest
  · cases isRest
  rename_i tail isTail
  cases isRest
  obtain ⟨last, isLast, rfl⟩ := Edit.exists_of_apply isTail behind
    (by dsimp only [e]; omega) le
  refine ⟨le, before, last, ?_, ?_, ?_⟩
  · rw [printed, split]
    refine (Edit.apply_append_of_lt_stop fun f memberF => ?_).trans isBefore
    rcases List.mem_cons.1 memberF with rfl | memberF
    · dsimp only [e, Span.upTo]
      omega
    · have := behind f memberF
      have := f.region.le
      dsimp only [Span.upTo]
      omega
  · rw [printed, split, List.append_cons]
    have byItself : Edit.apply d'.source produce ⟨i.path.stop, d'.source.length, le⟩ back
        i.path.stop = .ok last := by
      rw [← isLast]
      exact Edit.apply_eq_of_stop rfl
    refine (Edit.apply_append_of_start_lt fun f memberF => ?_).trans byItself
    rcases List.mem_append.1 memberF with memberF | memberF
    · have := inFront f memberF
      have := f.region.le
      dsimp only
      omega
    · rw [List.mem_singleton.1 memberF]
      dsimp only [e]
      omega
  · have keyword : d'.source.slice i.span.start i.gap.start = ("import" : Text) :=
      r.source ▸ laid.keyword
    rw [whole, printed, split, prints, isOut, Span.text, ← gapStop, ← keyword]
    simp only [e, List.append_assoc]

end Document

end StyleBinding
