import StyleBinding.Source.Span

/-!
# Cursors

A cursor is a place in a source: its offset, and the text that is still to be
read from there. Reading moves a cursor forward by a number of code points that
are there to be read, which `Upto` records for a move that may stand still and
`Past` for one that may not. Both give at once what every reader needs: how the
offset grew, how the rest shrank, and the span in between.
-/

namespace StyleBinding

/-- A place in a source. -/
structure Cursor where
  offset : Nat
  rest : Text

namespace Cursor

/-- The place before the first code point of a source. -/
def ofSource (source : Text) : Cursor := ⟨0, source⟩

/-- The place a number of code points further on. -/
def advance (c : Cursor) (n : Nat) : Cursor := ⟨c.offset + n, c.rest.drop n⟩

/-- `d` is reached from `c` by reading code points that are there, or none. -/
def Upto (c d : Cursor) : Prop := ∃ n, n ≤ c.rest.length ∧ d = c.advance n

/-- `d` is reached from `c` by reading at least one code point. -/
def Past (c d : Cursor) : Prop := ∃ n, 0 < n ∧ n ≤ c.rest.length ∧ d = c.advance n

/-! ## Composition -/

@[simp] theorem advance_zero (c : Cursor) : c.advance 0 = c := by
  simp [advance]

theorem advance_advance (c : Cursor) (m n : Nat) :
    (c.advance m).advance n = c.advance (m + n) := by
  simp [advance, Nat.add_assoc]

theorem Upto.refl (c : Cursor) : c.Upto c := ⟨0, Nat.zero_le _, (advance_zero c).symm⟩

theorem Past.upto {c d : Cursor} (h : c.Past d) : c.Upto d := by
  obtain ⟨n, _, le, rfl⟩ := h
  exact ⟨n, le, rfl⟩

theorem Upto.trans {c d e : Cursor} (h : c.Upto d) (k : d.Upto e) : c.Upto e := by
  obtain ⟨m, hm, rfl⟩ := h
  obtain ⟨n, hn, rfl⟩ := k
  refine ⟨m + n, ?_, advance_advance ..⟩
  simp only [advance, List.length_drop] at hn
  omega

theorem Upto.trans_past {c d e : Cursor} (h : c.Upto d) (k : d.Past e) : c.Past e := by
  obtain ⟨m, hm, rfl⟩ := h
  obtain ⟨n, pos, hn, rfl⟩ := k
  refine ⟨m + n, by omega, ?_, advance_advance ..⟩
  simp only [advance, List.length_drop] at hn
  omega

theorem Past.trans_upto {c d e : Cursor} (h : c.Past d) (k : d.Upto e) : c.Past e := by
  obtain ⟨m, pos, hm, rfl⟩ := h
  obtain ⟨n, hn, rfl⟩ := k
  refine ⟨m + n, by omega, ?_, advance_advance ..⟩
  simp only [advance, List.length_drop] at hn
  omega

theorem Past.trans {c d e : Cursor} (h : c.Past d) (k : d.Past e) : c.Past e :=
  h.trans_upto k.upto

/-! ## Measures -/

theorem Upto.length_le {c d : Cursor} (h : c.Upto d) : d.rest.length ≤ c.rest.length := by
  obtain ⟨n, _, rfl⟩ := h
  simp [advance]

theorem Past.length_lt {c d : Cursor} (h : c.Past d) : d.rest.length < c.rest.length := by
  obtain ⟨n, pos, le, rfl⟩ := h
  simp only [advance, List.length_drop]
  omega

theorem Upto.offset_le {c d : Cursor} (h : c.Upto d) : c.offset ≤ d.offset := by
  obtain ⟨n, _, rfl⟩ := h
  simp [advance]

theorem Past.offset_lt {c d : Cursor} (h : c.Past d) : c.offset < d.offset := by
  obtain ⟨n, pos, _, rfl⟩ := h
  simp only [advance]
  omega

/-- Offset and remaining length add up to the same number along the way. -/
theorem Upto.offset_add_length {c d : Cursor} (h : c.Upto d) :
    d.offset + d.rest.length = c.offset + c.rest.length := by
  obtain ⟨n, le, rfl⟩ := h
  simp only [advance, List.length_drop]
  omega

/-- The span between two places. -/
def spanTo (c d : Cursor) (h : c.Upto d) : Span := ⟨c.offset, d.offset, h.offset_le⟩

/-! ## Single steps -/

/-- One step is a move forward where there is something to read. -/
theorem past_of_cons {c : Cursor} {x : CodePoint} {t : Text} (h : c.rest = x :: t) :
    c.Past (c.advance 1) :=
  ⟨1, Nat.one_pos, by rw [h]; simp, rfl⟩

/-- Reading a number of code points that are there is a move forward. -/
theorem past_advance {c : Cursor} {n : Nat} (pos : 0 < n) (le : n ≤ c.rest.length) :
    c.Past (c.advance n) := ⟨n, pos, le, rfl⟩

theorem upto_advance {c : Cursor} {n : Nat} (le : n ≤ c.rest.length) :
    c.Upto (c.advance n) := ⟨n, le, rfl⟩

/-- A literal at the cursor can be read whole. -/
theorem le_length_of_startsWith {c : Cursor} {s : String} (h : c.rest.startsWith s = true) :
    s.toList.length ≤ c.rest.length := by
  obtain ⟨u, hu⟩ := List.isPrefixOf_iff_prefix.1 h
  have := congrArg List.length hu
  simp only [Text.ofString, List.length_append, List.length_map] at this
  omega

end Cursor

end StyleBinding
