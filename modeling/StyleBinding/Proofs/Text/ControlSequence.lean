import StyleBinding.Proofs.Text.Utf8
import StyleBinding.Text.ControlSequence

/-!
# Texts without control sequences

What is left of a text is a part of it, in order. Text in front that holds no escape
character stays as it is, and so does a line feed at the end, which neither belongs to a
control sequence nor completes one.
-/

namespace StyleBinding.Text

variable {t u : Text} {c : CodePoint} {n : Nat}

theorem withoutControlsAfter_sublist (n : Nat) (t : Text) :
    (withoutControlsAfter n t).Sublist t := by
  induction t generalizing n with
  | nil => cases n <;> exact .slnil
  | cons c t ih =>
    cases n with
    | succ n => exact (ih n).cons c
    | zero =>
      rw [withoutControlsAfter]
      split
      · exact (ih _).cons c
      · exact (ih 0).cons_cons c

theorem Encodable.withoutControls (h : t.Encodable) : t.withoutControls.Encodable :=
  fun c inside => h c ((withoutControlsAfter_sublist 0 t).subset inside)

/-! ## In front -/

theorem withoutControls_cons (h : c ≠ .scalar '\x1b') (t : Text) :
    withoutControls (c :: t) = c :: withoutControls t := by
  have none : controlLength? (c :: t) = none := by
    rw [controlLength?]
    rintro rest ⟨⟩
    exact h rfl
  rw [withoutControls, withoutControlsAfter, none]
  rfl

theorem withoutControls_append (h : .scalar '\x1b' ∉ t) (u : Text) :
    withoutControls (t ++ u) = t ++ withoutControls u := by
  induction t with
  | nil => rfl
  | cons c t ih =>
    obtain ⟨first, others⟩ := not_or.1 (mt List.mem_cons.2 h)
    rw [List.cons_append, withoutControls_cons (Ne.symm first), ih others, List.cons_append]

/-! ## The end of a line -/

theorem controlLength?_le (h : controlLength? t = some n) : n ≤ t.length := by
  unfold controlLength? at h
  split at h
  · rename_i rest
    dsimp only at h
    split_ifs at h with last
    cases h
    have inside : countWhile isParameter rest < rest.length := by
      by_contra all
      rw [List.drop_eq_nil_of_le (Nat.le_of_not_lt all)] at last
      cases last
    simp only [List.length_cons]
    omega
  · cases h

theorem countWhile_isParameter_line (t : Text) :
    countWhile isParameter (t ++ "\n") = countWhile isParameter t := by
  induction t with
  | nil => rfl
  | cons c t ih => rw [List.cons_append, countWhile, countWhile, ih]

theorem controlLength?_line (t : Text) : controlLength? (t ++ "\n") = controlLength? t := by
  by_cases opens : ∃ rest, t = .scalar '\x1b' :: .scalar '[' :: rest
  · obtain ⟨rest, rfl⟩ := opens
    have next : ((rest ++ "\n").drop (countWhile isParameter rest)).head?.any
          (·.isIn Char.isAlpha) =
        (rest.drop (countWhile isParameter rest)).head?.any (·.isIn Char.isAlpha) := by
      rw [List.drop_append_of_le_length (countWhile_le isParameter rest), List.head?_append]
      cases (rest.drop (countWhile isParameter rest)).head? <;> rfl
    rw [List.cons_append, List.cons_append, controlLength?, controlLength?,
      countWhile_isParameter_line, next]
  · have noLonger (rest : Text) : t ++ "\n" ≠ .scalar '\x1b' :: .scalar '[' :: rest := by
      intro same
      rcases t with _ | ⟨a, _ | ⟨b, t⟩⟩ <;> cases same
      exact opens ⟨t, rfl⟩
    rw [controlLength?, controlLength?]
    · exact fun rest same => opens ⟨rest, same⟩
    · exact noLonger

theorem withoutControlsAfter_line (h : n ≤ t.length) :
    withoutControlsAfter n (t ++ "\n") = withoutControlsAfter n t ++ "\n" := by
  induction t generalizing n with
  | nil =>
    cases Nat.le_zero.1 h
    rfl
  | cons c t ih =>
    rw [List.cons_append]
    cases n with
    | succ n => exact ih (Nat.le_of_succ_le_succ h)
    | zero =>
      have same := controlLength?_line (c :: t)
      rw [List.cons_append] at same
      rw [withoutControlsAfter, withoutControlsAfter, same]
      cases met : controlLength? (c :: t) with
      | none => exact congrArg (c :: ·) (ih (Nat.zero_le _))
      | some m => exact ih (Nat.sub_le_of_le_add (controlLength?_le met))

theorem withoutControls_line (t : Text) : withoutControls (t ++ "\n") = withoutControls t ++ "\n" :=
  withoutControlsAfter_line (Nat.zero_le _)

end StyleBinding.Text
