import Mathlib.Data.List.TakeWhile
import StyleBinding.Source.Span

/-!
# Cutting texts

What is left of a text when blanks are taken from its ends, how spans lie inside
one another, and what a text becomes when some of its spans are replaced.
-/

namespace StyleBinding

namespace Text

/-! ## Runs -/

theorem countWhile_eq (p : CodePoint → Bool) (t : Text) :
    countWhile p t = (t.takeWhile p).length := by
  induction t with
  | nil => rfl
  | cons c rest ih =>
    simp only [countWhile, List.takeWhile_cons]
    split
    · rw [ih, List.length_cons]
    · rfl

/-! ## Slices -/

@[simp] theorem slice_zero_length (t : Text) : t.slice 0 t.length = t := by
  rw [slice, List.drop_zero, Nat.sub_zero, List.take_length]

/-! ## Blanks at the ends -/

theorem trimEnd_isPrefix (t : Text) : trimEnd t <+: t := by
  have suffix : t.reverse.dropWhile (·.isBlank) <:+ t.reverse := List.dropWhile_suffix _
  have := List.reverse_prefix.2 suffix
  rwa [List.reverse_reverse] at this

theorem trimStart_cons {c : CodePoint} (t : Text) (h : c.isBlank = true) :
    trimStart (c :: t) = trimStart t := by
  rw [trimStart, List.dropWhile_cons_of_pos h]
  rfl

theorem trim_cons {c : CodePoint} (t : Text) (h : c.isBlank = true) :
    trim (c :: t) = trim t := by
  rw [trim, trimStart_cons t h]
  rfl

/-- A text that does not begin with a blank keeps its beginning. -/
theorem trim_of_not_isBlank {c : CodePoint} {t : Text} (h : c.isBlank = false) :
    trim (c :: t) ≠ [] ∧ trim (c :: t) <+: c :: t := by
  have start : trimStart (c :: t) = c :: t :=
    List.dropWhile_cons_of_neg (by simp [h])
  rw [trim, start]
  refine ⟨fun empty => ?_, trimEnd_isPrefix _⟩
  have all := List.dropWhile_eq_nil_iff.1 (List.reverse_eq_nil_iff.1 empty)
  have := all c (by simp)
  rw [h] at this
  cases this

/-- What is left between the blanks fits behind the blanks in front. -/
theorem countWhile_add_trim_le (t : Text) :
    countWhile (·.isBlank) t + (trim t).length ≤ t.length := by
  have first := (trimEnd_isPrefix (trimStart t)).length_le
  have second := congrArg List.length
    (List.takeWhile_append_dropWhile (p := (·.isBlank)) (l := t))
  rw [List.length_append, ← countWhile_eq] at second
  rw [trim]
  change _ + (t.dropWhile (·.isBlank)).length = _ at second
  rw [trimStart] at *
  omega

/-! ## Replacing spans -/

/-- The part of a text between two offsets with spans in it replaced, which are
given in order. -/
def splice (t : Text) (start stop : Nat) : List (Span × Text) → Text
  | [] => t.slice start stop
  | (s, new) :: rest => t.slice start s.start ++ new ++ splice t s.stop stop rest

end Text

/-! ## Spans inside spans -/

namespace Span

/-- The span of a whole text of a length. -/
def upTo (length : Nat) : Span := ⟨0, length, Nat.zero_le length⟩

/-- A span lies inside another, or is the same. -/
def Within (s t : Span) : Prop := t.start ≤ s.start ∧ s.stop ≤ t.stop

/-- A span lies inside another that reaches further. -/
def Inside (s t : Span) : Prop := s.Within t ∧ ¬ t.Within s

theorem Within.refl (s : Span) : s.Within s := ⟨Nat.le_refl _, Nat.le_refl _⟩

theorem Within.trans {s t u : Span} (h : s.Within t) (k : t.Within u) : s.Within u :=
  ⟨Nat.le_trans k.1 h.1, Nat.le_trans h.2 k.2⟩

theorem Within.antisymm {s t : Span} (h : s.Within t) (k : t.Within s) : s = t := by
  cases s
  cases t
  rw [mk.injEq]
  exact ⟨Nat.le_antisymm k.1 h.1, Nat.le_antisymm h.2 k.2⟩

theorem Within.trans_inside {s t u : Span} (h : s.Within t) (k : t.Inside u) : s.Inside u :=
  ⟨h.trans k.1, fun reverse => k.2 (reverse.trans h)⟩

/-- Two spans do not touch, or one of them lies inside the other and reaches neither
of its ends. -/
def Apart (s t : Span) : Prop :=
  s.stop < t.start ∨ t.stop < s.start ∨ (t.start < s.start ∧ s.stop < t.stop) ∨
    (s.start < t.start ∧ t.stop < s.stop)

theorem Apart.symm {s t : Span} (h : s.Apart t) : t.Apart s := by
  unfold Apart at *
  omega

/-- A span without the blanks at its ends lies inside it. -/
theorem strip_bounds (t : Text) (s : Span) :
    s.start + Text.countWhile (·.isBlank) (s.text t) + (Text.trim (s.text t)).length ≤ s.stop := by
  have := Text.countWhile_add_trim_le (s.text t)
  have length : (s.text t).length ≤ s.stop - s.start := by
    rw [text, Text.slice, List.length_take]
    exact Nat.min_le_left _ _
  have := s.le
  omega

end Span

end StyleBinding
