import StyleBinding.Proofs.Import.Walk
import StyleBinding.Proofs.Reading.Completeness
import StyleBinding.Proofs.Reading.Tokens

/-!
# Stretches in another place

A stretch of a source can be read in another place, where it stands at another offset
and in front of another text. `Relocation.place` says where each place of the stretch
goes. Blanks, comments and tokens of the stretch are read there as they were, where
what is behind them looks alike (`Relocation.Alike`), which it does in front of every
mark that no token goes on with.
-/

namespace StyleBinding

open Cursor Document Lexeme

/-- A stretch of a source, from an offset up to a place, and where it goes: to an
offset, in front of a text. -/
structure Relocation where
  start : Nat
  stop : Cursor
  target : Nat
  behind : Text

namespace Relocation

/-- Where an offset goes. -/
def offset (m : Relocation) (n : Nat) : Nat := n - m.start + m.target

theorem offset_mono (m : Relocation) {k n : Nat} (le : k ≤ n) : m.offset k ≤ m.offset n :=
  Nat.add_le_add_right (Nat.sub_le_sub_right le m.start) m.target

/-- Where a place goes. -/
def place (m : Relocation) (c : Cursor) : Cursor :=
  ⟨m.offset c.offset, c.rest.take (m.stop.offset - c.offset) ++ m.behind⟩

/-- A place of the stretch. -/
structure Covers (m : Relocation) (c : Cursor) : Prop where
  above : m.start ≤ c.offset
  upto : c.Upto m.stop

/-- What is behind a place looks the same where the place goes. -/
def Alike (m : Relocation) (c : Cursor) : Prop := Text.Alike c.rest (m.place c).rest

variable {m : Relocation} {c d : Cursor} {n : Nat} {x : CodePoint} {t : Text}

namespace Covers

theorem of_upto (h : m.Covers c) (upto : c.Upto d) (stops : d.Upto m.stop) : m.Covers d :=
  ⟨Nat.le_trans h.above upto.offset_le, stops⟩

theorem place_advance (h : m.Covers c) (k : m.Covers (c.advance n)) :
    m.place (c.advance n) = (m.place c).advance n := by
  have above := h.above
  have stop := k.upto.offset_le
  have length := h.upto.offset_add_length
  simp only [advance] at stop
  have le : n ≤ (c.rest.take (m.stop.offset - c.offset)).length := by
    rw [List.length_take]
    omega
  simp only [place, advance, offset, Cursor.mk.injEq, List.drop_append_of_le_length le,
    List.drop_take]
  constructor
  · omega
  · rw [Nat.sub_add_eq]

/-- What stands in the stretch stands where it goes. -/
theorem split (h : m.Covers c) (upto : c.Upto d) (stops : d.Upto m.stop) :
    ∃ u, c.rest = u ++ d.rest ∧ (m.place c).rest = u ++ (m.place d).rest ∧
      d = c.advance u.length ∧ m.place d = (m.place c).advance u.length := by
  obtain ⟨n, le, rfl⟩ := upto
  have advanced := h.place_advance (h.of_upto ⟨n, le, rfl⟩ stops)
  have stop := stops.offset_le
  simp only [advance] at stop
  have length : (c.rest.take n).length = n := List.length_take_of_le le
  have same : (m.place c).rest.take n = c.rest.take n := by
    have whole := h.upto.offset_add_length
    have fits : n ≤ (c.rest.take (m.stop.offset - c.offset)).length := by
      rw [List.length_take]
      omega
    rw [place, List.take_append_of_le_length fits, List.take_take, Nat.min_eq_left (by omega)]
  refine ⟨c.rest.take n, (List.take_append_drop n _).symm, ?_, by rw [length], by rwa [length]⟩
  rw [advanced, ← same]
  exact (List.take_append_drop n _).symm

theorem take (h : m.Covers c) (upto : c.Upto (c.advance n))
    (stops : (c.advance n).Upto m.stop) : (m.place c).rest.take n = c.rest.take n := by
  obtain ⟨u, rest, rest', same, _⟩ := h.split upto stops
  have length : u.length = n := Nat.add_left_cancel (congrArg Cursor.offset same).symm
  rw [rest, rest', ← length, List.take_left, List.take_left]

theorem place_upto (h : m.Covers c) (upto : c.Upto d) (stops : d.Upto m.stop) :
    (m.place c).Upto (m.place d) := by
  obtain ⟨u, _, rest, _, same⟩ := h.split upto stops
  exact ⟨u.length, by rw [rest, List.length_append]; exact Nat.le_add_right _ _, same⟩

/-- A place in front of one of the stretch, in the same text, that is itself in front of
the stretch's end. -/
theorem cons (h : m.Covers c) (hr : c.rest = x :: t) (stops : (c.advance 1).Upto m.stop) :
    ∃ s, (m.place c).rest = x :: s := by
  obtain ⟨u, rest, rest', same, _⟩ := h.split (past_of_cons hr).upto stops
  have length : u.length = 1 := Nat.add_left_cancel (congrArg Cursor.offset same).symm
  obtain ⟨y, rfl⟩ := List.length_eq_one_iff.1 length
  obtain ⟨rfl, _⟩ := List.cons.inj (hr.symm.trans rest)
  exact ⟨_, rest'⟩

theorem cons_cons {y : CodePoint} (h : m.Covers c) (hr : c.rest = x :: y :: t)
    (stops : (c.advance 2).Upto m.stop) : ∃ s, (m.place c).rest = x :: y :: s := by
  have upto : c.Upto (c.advance 2) := upto_advance (by rw [hr]; exact Nat.le_add_left 2 _)
  have two := h.take upto stops
  rw [hr] at two
  exact ⟨(m.place c).rest.drop 2, by rw [← List.take_append_drop 2 (m.place c).rest, two]; rfl⟩

theorem head?_eq (h : m.Covers c) (hr : c.rest = x :: t) (stops : (c.advance 1).Upto m.stop) :
    (m.place c).rest.head? = c.rest.head? := by
  obtain ⟨s, rest⟩ := h.cons hr stops
  rw [rest, hr]
  rfl

theorem startsWith_eq {s : String} (h : m.Covers c)
    (le : c.offset + s.toList.length ≤ m.stop.offset) :
    (m.place c).rest.startsWith s = c.rest.startsWith s := by
  obtain ⟨u, rest, rest', same, _⟩ := h.split h.upto (.refl _)
  have length : m.stop.offset = c.offset + u.length := congrArg Cursor.offset same
  rw [rest, rest']
  exact Text.startsWith_append (by omega)

/-! ## Looking alike -/

theorem alike (h : m.Covers c) (upto : c.Upto d) (stops : d.Upto m.stop) (alike : m.Alike d) :
    m.Alike c := by
  obtain ⟨u, rest, rest', _⟩ := h.split upto stops
  rw [Alike, rest, rest']
  exact Text.Alike.append alike u

/-! ## Blanks and comments -/

theorem skips (h : m.Covers c) (skips : c.Skips d) (stops : d.Upto m.stop) (nonempty : d.rest ≠ [])
    (clear : (m.place d).Skips (m.place d)) : (m.place c).Skips (m.place d) := by
  obtain ⟨u, rest, rest', same, same'⟩ := h.split skips.upto stops
  have start : c = ⟨c.offset, u ++ d.rest⟩ := by rw [← rest]
  have stop : d = ⟨c.offset + u.length, d.rest⟩ := by
    have := congrArg Cursor.offset same
    simp only [advance] at this
    rw [← this]
  have start' : m.place c = ⟨(m.place c).offset, u ++ (m.place d).rest⟩ := by rw [← rest']
  have stop' : m.place d = ⟨(m.place c).offset + u.length, (m.place d).rest⟩ := by
    have := congrArg Cursor.offset same'
    simp only [advance] at this
    rw [← this]
  rw [start, stop] at skips
  rw [start']
  refine Skips.append skips (fun atEnd => absurd atEnd nonempty) ?_
  rwa [← stop']

theorem skips_of_alike (h : m.Covers c) (skips : c.Skips d) (stops : d.Upto m.stop)
    (nonempty : d.rest ≠ []) (alike : m.Alike d) : (m.place c).Skips (m.place d) :=
  h.skips skips stops nonempty (Skips.alike skips.again alike nonempty)

/-- In front of a code point of the stretch that no blank or comment starts with. -/
theorem skips_of_starts (h : m.Covers c) (skips : c.Skips d) (hr : d.rest = x :: t)
    (starts : startsToken x = true) (stops : (d.advance 1).Upto m.stop) :
    (m.place c).Skips (m.place d) := by
  have upto := (past_of_cons hr).upto.trans stops
  obtain ⟨s, rest⟩ := (h.of_upto skips.upto upto).cons hr stops
  exact h.skips skips upto (by rw [hr]; exact List.cons_ne_nil _ _)
    (skips_of_startsToken rest starts)

end Covers

/-! ## In front of a place -/

/-- What a relocation does in front of a place of its stretch. -/
def before (m : Relocation) (d : Cursor) : Relocation :=
  ⟨m.start, d, m.target, (m.place d).rest⟩

theorem Covers.place_before (h : m.Covers c) (upto : c.Upto d)
    (stops : d.Upto m.stop) : (m.before d).place c = m.place c := by
  obtain ⟨u, rest, rest', same, _⟩ := h.split upto stops
  have offset : d.offset = c.offset + u.length := congrArg Cursor.offset same
  have front : c.rest.take (d.offset - c.offset) = u := by
    rw [offset, Nat.add_sub_cancel_left, rest, List.take_left]
  have whole : m.place c = ⟨m.offset c.offset, (m.place c).rest⟩ := rfl
  rw [whole, rest', place, before]
  dsimp only
  rw [front]
  rfl

/-! ## Names -/

theorem startsToken_of_goesOn {x : CodePoint} (h : goesOn x = true) : startsToken x = true := by
  simp only [goesOn, CodePoint.isTag, Bool.or_eq_true, CodePoint.is_iff] at h
  rcases h with ((isName | rfl) | rfl) | rfl
  · exact startsToken_of_isName isName
  all_goals rfl

namespace Covers

theorem tagNameLength_eq (h : m.Covers c) (eq : n = tagNameLength c.rest) (pos : 0 < n)
    (stops : (c.advance n).Upto m.stop)
    (ends : (m.place (c.advance n)).rest.head?.any goesOn = false) :
    tagNameLength (m.place c).rest = n := by
  have upto : c.Upto (c.advance n) := upto_advance (eq ▸ tagNameLength_le _)
  obtain ⟨u, rest, rest', same, _⟩ := h.split upto stops
  obtain rfl : u.length = n := Nat.add_left_cancel (congrArg Cursor.offset same).symm
  rw [rest']
  refine tagNameLength_append (v := (c.advance u.length).rest) ?_ pos ends
  rw [← rest, ← eq]

theorem attributeNameLength_eq (h : m.Covers c) (eq : n = attributeNameLength c.rest) (pos : 0 < n)
    (stops : (c.advance n).Upto m.stop)
    (ends : (m.place (c.advance n)).rest.head?.any goesOn = false) :
    attributeNameLength (m.place c).rest = n := by
  have upto : c.Upto (c.advance n) := upto_advance (eq ▸ attributeNameLength_le _)
  obtain ⟨u, rest, rest', same, _⟩ := h.split upto stops
  obtain rfl : u.length = n := Nat.add_left_cancel (congrArg Cursor.offset same).symm
  rw [rest']
  refine attributeNameLength_append (v := (c.advance u.length).rest) ?_ pos ends
  rw [← rest, ← eq]

end Covers

/-! ## Tokens -/

/-- Whether a slash of the stretch that opens no regular expression opens none where it
goes. -/
def KeepsStray (m : Relocation) : Prop :=
  ∀ prev c, m.Covers c → Lead.IsStray prev c → regexLength? (m.place c).rest = none

theorem Covers.lexed {topLevel : Bool} {prev prev' prev₂ : Previous} (h : m.Covers c)
    (lexed : Lead.Lexed topLevel prev c n prev') (stops : (c.advance n).Upto m.stop)
    (alike : m.Alike (c.advance n))
    (stray : Lead.IsStray prev c → regexLength? (m.place c).rest = none)
    (like : prev.Like prev₂)
    (goesOn : Lead.Announces topLevel prev₂ (c.rest.take n) →
      Lead.startsDeclaration (m.place (c.advance n)) = .ok false) :
    Lead.Lexed topLevel prev₂ (m.place c) n prev' := by
  obtain ⟨past, _⟩ := lexed.at_token
  obtain ⟨u, rest, rest', same, _⟩ := h.split past.upto stops
  obtain rfl : u.length = n := Nat.add_left_cancel (congrArg Cursor.offset same).symm
  have start : c = ⟨c.offset, u ++ (c.advance u.length).rest⟩ := by rw [← rest]
  have start' : m.place c = ⟨(m.place c).offset, u ++ (m.place (c.advance u.length)).rest⟩ := by
    rw [← rest']
  rw [rest, List.take_left, (h.place_advance (h.of_upto past.upto stops))] at goesOn
  rw [rest'] at stray
  rw [start']
  refine Lead.Lexed.carried (start ▸ lexed) alike (fun isStray => stray (start ▸ isStray)) like
    fun announces => ?_
  have starts := goesOn announces
  rw [advance, rest', List.drop_left] at starts
  exact starts

end Relocation

end StyleBinding
