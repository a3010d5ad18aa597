import Mathlib.Data.List.Basic
import Mathlib.Data.List.TakeWhile
import StyleBinding.Text.Lowercase
import StyleBinding.Text.Path

/-!
# Extensions in lower case

The extension of a path begins at the last full stop of its last component. Lowering a
component keeps its full stops apart from all else, so the last of them stays the last
(`Text.lower_component`). What stands behind it is lowered as it would be alone, unless
a capital sigma begins a word there: whether that sigma ends the word is then seen only
in front of the full stop (`Text.LowersAlone`).
-/

namespace StyleBinding

namespace Text

/-! ## The last occurrence -/

/-- What stands behind the last occurrence of a character holds no other. -/
theorem not_mem_afterLast (x : Char) (t : Text) : .scalar x ∉ afterLast x t := by
  intro member
  have := List.mem_takeWhile_imp (List.mem_reverse.1 member)
  simp [CodePoint.is] at this

/-- A text with a character in it is cut at the last one. -/
theorem eq_append_afterLast {x : Char} {t : Text} (h : .scalar x ∈ t) :
    ∃ front, t = front ++ .scalar x :: afterLast x t := by
  have stops := List.head?_dropWhile_not (fun c : CodePoint => !c.is x) t.reverse
  have whole := List.takeWhile_append_dropWhile (p := fun c : CodePoint => !c.is x)
    (l := t.reverse)
  cases rest : t.reverse.dropWhile (!·.is x) with
  | nil =>
    have all := List.dropWhile_eq_nil_iff.1 rest _ (List.mem_reverse.2 h)
    simp [CodePoint.is] at all
  | cons c front =>
    rw [rest] at stops whole
    obtain rfl : c = .scalar x := by simpa using stops
    refine ⟨front.reverse, ?_⟩
    have reversed := congrArg List.reverse whole
    rw [List.reverse_reverse] at reversed
    rw [afterLast]
    conv_lhs => rw [← reversed]
    simp

/-- What stands behind the last occurrence is seen from any occurrence without another
behind it. -/
theorem afterLast_append {x : Char} {front behind : Text} (h : .scalar x ∉ behind) :
    afterLast x (front ++ .scalar x :: behind) = behind := by
  have others : ∀ c ∈ behind.reverse, (!c.is x) = true := by
    intro c member
    have other : c ≠ .scalar x := fun same => h (same ▸ List.mem_reverse.1 member)
    simpa [CodePoint.is] using other
  rw [afterLast, List.reverse_append, List.reverse_cons, List.append_assoc,
    List.takeWhile_append_of_pos others, List.singleton_append,
    List.takeWhile_cons_of_neg (by simp), List.append_nil, List.reverse_reverse]

/-- A text is cut at the last occurrence in one way. -/
theorem cut_unique {x : Char} {front front' behind behind' : Text} (h : .scalar x ∉ behind)
    (h' : .scalar x ∉ behind')
    (same : front ++ .scalar x :: behind = front' ++ .scalar x :: behind') :
    front = front' ∧ behind = behind' := by
  have last := congrArg (afterLast x) same
  rw [afterLast_append h, afterLast_append h'] at last
  subst last
  exact ⟨List.append_cancel_right same, rfl⟩

/-! ## Extensions -/

variable {t stem letters : Text}

theorem splitExtension_of_not_mem (h : .scalar '.' ∉ t) : (splitExtension t).2 = [] := by
  have whole : afterLast '.' t = t := by
    rw [afterLast, List.takeWhile_eq_self_iff.2, List.reverse_reverse]
    intro c member
    have other : c ≠ .scalar '.' := fun same => h (same ▸ List.mem_reverse.1 member)
    simpa [CodePoint.is] using other
  simp [splitExtension, whole]

/-- The extension begins at the last full stop behind something else. -/
theorem splitExtension_append (h : .scalar '.' ∉ letters) :
    (splitExtension (stem ++ .scalar '.' :: letters)).2 =
      if stem.all (·.is '.') then [] else .scalar '.' :: letters := by
  have length : (stem ++ .scalar '.' :: letters).length - letters.length - 1 = stem.length := by
    simp only [List.length_append, List.length_cons]
    omega
  rw [splitExtension]
  simp only [afterLast_append h, length, List.take_left]
  split <;> rfl

/-! ## Lower case -/

/-- No run of capitals is lowered to a full stop. -/
theorem full_stop_lt_of_covers {r : CaseRun} (member : r ∈ caseRuns) {n : Nat}
    (covers : r.covers n = true) : 0x2E < (n : Int) + r.distance := by
  have first : ∀ r ∈ caseRuns, 0x2E < (r.first : Int) + r.distance := by decide +kernel
  have above : r.first ≤ n := by
    simp only [CaseRun.covers, Bool.and_eq_true, decide_eq_true_eq] at covers
    exact covers.1.1
  have := first r member
  omega

theorem ofNat_ne_full_stop {n : Nat} (h : 0x2E < n) : Char.ofNat n ≠ '.' := by
  intro same
  unfold Char.ofNat at same
  by_cases valid : n.isValidChar
  · rw [dif_pos valid] at same
    have number : n = 0x2E := congrArg Char.toNat same
    omega
  · rw [dif_neg valid] at same
    exact absurd same (by decide)

theorem lower_eq_full_stop_iff {c : CodePoint} : c.lower = .scalar '.' ↔ c = .scalar '.' := by
  constructor
  case mpr =>
    rintro rfl
    decide
  intro isStop
  by_contra other
  obtain x | i := c
  · rw [CodePoint.lower] at isStop
    split at isStop
    · rename_i small
      have ascii : ∀ n < 0x80, Char.ofNat n ≠ '.' → (Char.ofNat n).toLower ≠ '.' := by decide
      have here := ascii x.toNat small
      rw [Char.ofNat_toNat] at here
      exact here (fun same => other (congrArg _ same)) (CodePoint.scalar_inj.1 isStop)
    · split at isStop
      · rename_i r isRun
        have above := full_stop_lt_of_covers (List.mem_of_find?_eq_some isRun)
          (List.find?_some (p := fun r : CaseRun => r.covers x.toNat) isRun)
        exact ofNat_ne_full_stop (by omega) (CodePoint.scalar_inj.1 isStop)
      · exact other isStop
  · exact other isStop

/-- What one code point of a text is lowered to, by the code points in front of it, the
nearest first, and those behind it. -/
def lowerAt (before : Text) (c : CodePoint) (behind : Text) : Text :=
  if c.is 'İ' then [.scalar 'i', .scalar '\u0307']
  else if c.is 'Σ' then
    [.scalar (if meetsCased before && !meetsCased behind then 'ς' else 'σ')]
  else [c.lower]

theorem lowerAfter_cons (before : Text) (c : CodePoint) (t : Text) :
    lowerAfter before (c :: t) = lowerAt before c t ++ lowerAfter (c :: before) t := rfl

theorem lowerAt_full_stop (before behind : Text) :
    lowerAt before (.scalar '.') behind = [.scalar '.'] := by
  rw [lowerAt, if_neg (by decide), if_neg (by decide), lower_eq_full_stop_iff.2 rfl]

/-- Everything but a full stop is lowered to something, and not to a full stop. -/
theorem lowerAt_of_ne {c : CodePoint} (h : c ≠ .scalar '.') (before behind : Text) :
    lowerAt before c behind ≠ [] ∧ .scalar '.' ∉ lowerAt before c behind := by
  rw [lowerAt]
  split
  · decide
  · split
    · split <;> decide
    · refine ⟨List.cons_ne_nil _ _, fun member => h ?_⟩
      exact lower_eq_full_stop_iff.1 (List.mem_singleton.1 member).symm

theorem mem_lowerAfter_iff (before t : Text) :
    .scalar '.' ∈ lowerAfter before t ↔ .scalar '.' ∈ t := by
  induction t generalizing before with
  | nil => rfl
  | cons c t ih =>
    rw [lowerAfter_cons, List.mem_append, ih, List.mem_cons]
    by_cases isStop : c = .scalar '.'
    · rw [isStop, lowerAt_full_stop]
      simp
    · have none := (lowerAt_of_ne isStop before t).2
      simp [none, Ne.symm isStop]

/-- A text that something other than full stops stands in. -/
def IsStem (t : Text) : Prop := ∃ c ∈ t, c ≠ .scalar '.'

theorem isStem_iff : t.IsStem ↔ t.all (·.is '.') = false := by
  simp [IsStem]

/-- Lowering goes on behind a text with what stands there. What comes in front of that is a
stem if and only if the text is one. -/
theorem lowerAfter_append (before t u : Text) :
    ∃ front, lowerAfter before (t ++ u) = front ++ lowerAfter (t.reverse ++ before) u ∧
      (front.IsStem ↔ t.IsStem) := by
  induction t generalizing before with
  | nil => exact ⟨[], rfl, Iff.rfl⟩
  | cons c t ih =>
    obtain ⟨front, same, isStem⟩ := ih (c :: before)
    refine ⟨lowerAt before c (t ++ u) ++ front, ?_, ?_⟩
    · rw [List.cons_append, lowerAfter_cons, same, List.append_assoc, List.reverse_cons,
        List.append_assoc, List.singleton_append]
    · unfold IsStem at isStem ⊢
      by_cases isStop : c = .scalar '.'
      · rw [isStop, lowerAt_full_stop]
        simpa using isStem
      · obtain ⟨nonempty, none⟩ := lowerAt_of_ne isStop before (t ++ u)
        obtain ⟨x, more, eq⟩ := List.exists_cons_of_ne_nil nonempty
        rw [eq] at none ⊢
        refine iff_of_true ⟨x, by simp, ?_⟩ ⟨c, by simp, isStop⟩
        rintro rfl
        exact none (by simp)

/-! ## Lowering an extension alone -/

/-- A text that is lowered behind any other as it is alone: a capital sigma is not the first
thing in it that counts for case. -/
def LowersAlone (t : Text) : Prop := t.find? (!·.isCaseIgnorable) ≠ some (.scalar 'Σ')

instance (t : Text) : Decidable t.LowersAlone := inferInstanceAs (Decidable (_ ≠ _))

theorem meetsCased_cons (c : CodePoint) (t : Text) :
    meetsCased (c :: t) = if c.isCaseIgnorable then meetsCased t else c.isCased := by
  unfold meetsCased
  cases ignored : c.isCaseIgnorable with
  | true => rw [List.find?_cons_of_neg (by simp [ignored]), if_pos rfl]
  | false => rw [List.find?_cons_of_pos (by simp [ignored]), if_neg Bool.false_ne_true]

theorem lowerAfter_congr {before before' : Text} (same : meetsCased before = meetsCased before')
    (t : Text) : lowerAfter before t = lowerAfter before' t := by
  induction t generalizing before before' with
  | nil => rfl
  | cons c t ih =>
    have behind : meetsCased (c :: before) = meetsCased (c :: before') := by
      rw [meetsCased_cons, meetsCased_cons, same]
    rw [lowerAfter_cons, lowerAfter_cons, ih behind, lowerAt, lowerAt, same]

theorem LowersAlone.lowerAfter_eq (h : t.LowersAlone) (before before' : Text) :
    lowerAfter before t = lowerAfter before' t := by
  induction t generalizing before before' with
  | nil => rfl
  | cons c t ih =>
    unfold LowersAlone at h
    have noSigma : c.is 'Σ' = false := by
      rw [Bool.eq_false_iff]
      intro isSigma
      rw [CodePoint.is_iff.1 isSigma, List.find?_cons_of_pos (by decide +kernel)] at h
      exact h rfl
    have here : lowerAt before c t = lowerAt before' c t := by
      rw [lowerAt, lowerAt, noSigma, if_neg Bool.false_ne_true, if_neg Bool.false_ne_true]
    rw [lowerAfter_cons, lowerAfter_cons, here]
    cases ignored : c.isCaseIgnorable with
    | true =>
      rw [List.find?_cons_of_neg (by simp [ignored])] at h
      rw [ih h]
    | false =>
      have seen : meetsCased (c :: before) = meetsCased (c :: before') := by
        rw [meetsCased_cons, meetsCased_cons, ignored, if_neg Bool.false_ne_true,
          if_neg Bool.false_ne_true]
      rw [lowerAfter_congr seen]

/-! ## Components -/

/-- A component is a stem and an extension behind it. -/
def HasExtension (component e : Text) : Prop :=
  ∃ stem : Text, component = stem ++ e ∧ stem.IsStem

/-- An extension in lower case has no full stop but the first. -/
theorem not_mem_of_lower_splitExtension {component : Text}
    (same : (splitExtension component).2.lower = .scalar '.' :: letters) :
    .scalar '.' ∉ letters := by
  rw [splitExtension] at same
  split at same
  · cases same
  · rw [lower, lowerAfter_cons, lowerAt_full_stop] at same
    obtain rfl : lowerAfter _ _ = letters := (List.cons.inj same).2
    exact mt (mem_lowerAfter_iff _ _).1 (not_mem_afterLast '.' component)

/-- The lower-case extension of a component is what a stem stands in front of in the
lower-case component, if one full stop begins it. -/
theorem lower_component {component : Text} (none : .scalar '.' ∉ letters)
    (alone : (splitExtension component).2.LowersAlone) :
    (splitExtension component).2.lower = .scalar '.' :: letters ↔
      component.lower.HasExtension (.scalar '.' :: letters) := by
  by_cases member : .scalar '.' ∈ component
  case neg =>
    refine iff_of_false (fun same => ?_) ?_
    · rw [splitExtension_of_not_mem member] at same
      cases same
    · rintro ⟨front, same, _⟩
      have inLower : .scalar '.' ∈ component.lower := by simp [same]
      exact member ((mem_lowerAfter_iff [] component).1 inLower)
  case pos =>
    have noStop := not_mem_afterLast '.' component
    obtain ⟨stem, cut⟩ := eq_append_afterLast member
    generalize afterLast '.' component = behind at cut noStop
    subst cut
    obtain ⟨front, lowered, isStem⟩ := lowerAfter_append [] stem (.scalar '.' :: behind)
    have stop : lowerAfter (stem.reverse ++ []) (.scalar '.' :: behind) =
        .scalar '.' :: lowerAfter (.scalar '.' :: (stem.reverse ++ [])) behind := by
      rw [lowerAfter_cons, lowerAt_full_stop]
      rfl
    have noStop' := mt (mem_lowerAfter_iff (.scalar '.' :: (stem.reverse ++ [])) behind).1 noStop
    have unique {front' : Text} (same : (stem ++ .scalar '.' :: behind).lower =
        front' ++ .scalar '.' :: letters) := cut_unique noStop' none
      (stop ▸ lowered.symm.trans same)
    rw [splitExtension_append noStop] at alone ⊢
    split at alone
    · rename_i noStem
      refine iff_of_false (fun same => ?_) ?_
      · rw [if_pos noStem] at same
        cases same
      · rintro ⟨front', same, isStem'⟩
        rw [← (unique same).1, isStem, isStem_iff, noStem] at isStem'
        cases isStem'
    · rename_i isStem'
      rw [if_neg isStem']
      have alone := alone.lowerAfter_eq [] (stem.reverse ++ [])
      constructor
      · intro same
        refine ⟨front, ?_, isStem.2 (isStem_iff.2 (eq_false_of_ne_true isStem'))⟩
        rw [← same]
        exact lowered.trans (congrArg _ alone.symm)
      · rintro ⟨front', same, _⟩
        rw [← (unique same).2]
        exact alone.trans stop

end Text

end StyleBinding
