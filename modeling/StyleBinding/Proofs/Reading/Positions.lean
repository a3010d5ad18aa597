import Mathlib.Data.List.Basic
import StyleBinding.Proofs.Reading.Refusals

/-!
# Where errors are reported

A line of a text starts at its beginning or just behind a line feed. The line of a
position says where to start, and the column how far to go from there, so that a position
leads back to its offset and no two offsets of a text share one. This follows from what
reading one more code point does to a position.

Syntax errors are reported at offsets that reading has come to. None of them lies beyond
the end of the source, so all of them have exact positions.
-/

namespace StyleBinding

/-- The offsets at which the lines of a text start: its beginning, and the offset behind
each line feed. -/
def Text.lineStarts (t : Text) : List Nat := 0 :: List.idxsOf (.scalar '\n') t 1

/-- A position marks the offset that lies as far behind the start of its line as its
column says. Lines and columns are counted from one. -/
def Position.Marks (p : Position) (t : Text) (offset : Nat) : Prop :=
  0 < p.line ∧ 0 < p.column ∧
    ∃ start, t.lineStarts[p.line - 1]? = some start ∧ start + (p.column - 1) = offset

/-! ## Lines and columns -/

namespace Text

variable {t : Text} {offset : Nat} {x : CodePoint}

/-- The line behind a line feed is numbered by the line feeds up to it. -/
theorem lineStarts_append (above below : Text) :
    (lineStarts (above ++ .scalar '\n' :: below))[above.count (.scalar '\n') + 1]? =
      some (above.length + 1) := by
  rw [lineStarts, List.getElem?_cons_succ, List.idxsOf_append, List.idxsOf_cons,
    beq_self_eq_true, if_pos rfl, ← List.length_idxsOf (s := 1),
    List.getElem?_append_right (Nat.le_refl _), Nat.sub_self, List.getElem?_cons_zero,
    Nat.add_comm]

theorem lineStarts_lineOf (h : t[offset]? = some (.scalar '\n')) :
    t.lineStarts[t.lineOf offset]? = some (offset + 1) := by
  obtain ⟨lt, isFeed⟩ := List.getElem?_eq_some_iff.1 h
  have starts := lineStarts_append (t.take offset) (t.drop (offset + 1))
  rwa [← isFeed, List.getElem_cons_drop, List.take_append_drop, isFeed,
    List.length_take_of_le lt.le] at starts

/-- Reading on over a line feed starts a line, and over anything else a column. -/
theorem positionAt_succ (h : t[offset]? = some x) :
    t.positionAt (offset + 1) =
      if x.is '\n' then ⟨t.lineOf offset + 1, 1⟩
      else ⟨t.lineOf offset, t.sinceLineStart offset + 2⟩ := by
  have further : t.take (offset + 1) = t.take offset ++ [x] := by
    rw [List.take_add_one, h, Option.toList_some]
  rw [positionAt, lineOf, sinceLineStart, further, List.count_append, List.count_singleton,
    List.reverse_append, List.reverse_singleton, List.singleton_append, countWhile]
  cases isFeed : x.is '\n' with
  | true => simp [lineOf, CodePoint.is_iff.1 isFeed]
  | false =>
    have other : (x == .scalar '\n') = false := isFeed
    simp [lineOf, sinceLineStart, other]

/-- The position of an offset marks it. -/
theorem positionAt_marks (le : offset ≤ t.length) : (t.positionAt offset).Marks t offset := by
  -- Reading on keeps the start of the line, or comes to that of the next one.
  induction offset with
  | zero => exact ⟨Nat.one_pos, Nat.one_pos, 0, rfl, rfl⟩
  | succ offset ih =>
    obtain ⟨_, _, start, isStart, reaches⟩ := ih (Nat.le_of_succ_le le)
    rw [positionAt_succ (List.getElem?_eq_getElem le)]
    split
    · rename_i isFeed
      have feed := CodePoint.is_iff.1 isFeed
      exact ⟨Nat.succ_pos _, Nat.one_pos, offset + 1,
        lineStarts_lineOf (List.getElem?_eq_some_iff.2 ⟨le, feed⟩), rfl⟩
    · exact ⟨Nat.succ_pos _, Nat.succ_pos _, start, isStart, congrArg (· + 1) reaches⟩

end Text

/-- A position marks one offset of a text at most. -/
theorem Position.Marks.unique {p : Position} {t : Text} {i j : Nat} (h : p.Marks t i)
    (k : p.Marks t j) : i = j := by
  obtain ⟨_, _, start, isStart, reaches⟩ := h
  obtain ⟨_, _, start', isStart', reaches'⟩ := k
  have same := Option.some.inj (isStart.symm.trans isStart')
  rw [← reaches, ← reaches', same]

theorem Text.positionAt_inj {t : Text} {i j : Nat} (hi : i ≤ t.length) (hj : j ≤ t.length)
    (same : t.positionAt i = t.positionAt j) : i = j :=
  (positionAt_marks hi).unique (same ▸ positionAt_marks hj)

/-! ## Syntax errors -/

/-- What a refusal of a module says about its source. -/
theorem Document.warranted_of_parse {source : Text} {refusal : Refusal}
    (h : parse source = .error refusal) : refusal.Warranted source := by
  unfold parse at h
  split at h
  · rename_i failed
    cases h
    exact warranted_of_readCode (codeStart_upto source) failed
  · cases h

/-- The position of a syntax error is exact: its line is the line of its offset, and the
line and the column lead back to the offset, at every offset up to the end of the source.
Errors at different offsets have different positions, and a module is refused nowhere
beyond its end. -/
theorem SyntaxError.position_exact (source : Text) :
    (∀ e : SyntaxError, e.offset ≤ source.length →
      (e.position source).line = source.lineOf e.offset ∧
        (e.position source).Marks source e.offset) ∧
      (∀ e f : SyntaxError, e.offset ≤ source.length → f.offset ≤ source.length →
        e.position source = f.position source → e.offset = f.offset) ∧
      ∀ e, Document.parse source = .error (.syntaxError e) → e.offset ≤ source.length := by
  refine ⟨fun e le => ⟨rfl, Text.positionAt_marks le⟩,
    fun e f leE leF same => Text.positionAt_inj leE leF same, fun e failed => ?_⟩
  exact Document.warranted_of_parse failed

/-- An opening bracket at the end of a line, and nothing behind the line. -/
def Document.unclosedSource : Text := "const b = (\n"

/-- The missing bracket is reported at the end of the source, which is the start of the
second line. The line feed in front of it is the last column of the first. -/
theorem SyntaxError.position_exact_unclosed :
    let e : SyntaxError := ⟨.expectedBeforeEnd ')', 12⟩
    let f : SyntaxError := ⟨.unterminatedImport, 11⟩
    Document.parse Document.unclosedSource = .error (.syntaxError e) ∧
      e.offset ≤ Document.unclosedSource.length ∧
      e.position Document.unclosedSource = ⟨2, 1⟩ ∧
      (e.position Document.unclosedSource).Marks Document.unclosedSource 12 ∧
      f.position Document.unclosedSource = ⟨1, 12⟩ ∧
      f.position Document.unclosedSource ≠ e.position Document.unclosedSource := by
  intro e f
  have refused : (match Document.parse Document.unclosedSource with
    | .error r => decide (r = .syntaxError e)
    | .ok _ => false) = true := by decide +kernel
  have failed : Document.parse Document.unclosedSource = .error (.syntaxError e) := by
    split at refused
    · rename_i r failed
      rw [failed, of_decide_eq_true refused]
    · cases refused
  obtain ⟨marks, injective, within⟩ := SyntaxError.position_exact Document.unclosedSource
  have le : e.offset ≤ Document.unclosedSource.length := within e failed
  have le' : f.offset ≤ Document.unclosedSource.length := by decide
  exact ⟨failed, le, by decide, (marks e le).2, by decide,
    fun same => absurd (injective f e le' le same) (by decide)⟩

end StyleBinding
