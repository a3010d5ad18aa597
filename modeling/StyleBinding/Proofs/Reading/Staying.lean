import StyleBinding.Proofs.Reading.Outcomes
import StyleBinding.Proofs.Reading.Stages

/-!
# Another text behind a place

A source is read up to a full stop or question mark in code, and the text from there on is
replaced by one that begins alike (`Relocation.Stays`). What has been read in front of the
mark is read there again, at the same offsets. A stage of reading is told by what stands
in front of the mark (`Relocation.Sees`), where it leads to the mark.
-/

namespace StyleBinding

open Cursor Document Lexeme

/-! ## Looking ahead -/

theorem Lead.startsDeclaration_eq {k p : Cursor} (skips : k.Skips p) :
    startsDeclaration k = .ok (p.rest.head?.any fun x => !(x.is '(' || x.is '.')) := by
  obtain ⟨upto, skips⟩ := skips
  unfold startsDeclaration
  simp only [skips]
  split
  · rename_i atEnd
    rw [atEnd]
    rfl
  · rename_i hr
    rw [hr]
    rfl

/-- A token that begins with the first letter of `import`, `with` or `assert` is a name. -/
theorem Lead.Lexed.eq_nameLength {topLevel : Bool} {prev prev' : Previous} {c : Cursor} {n : Nat}
    {y : Char} {t : Text} (h : Lexed topLevel prev c n prev') (hr : c.rest = .scalar y :: t)
    (letter : y = 'i' ∨ y = 'w' ∨ y = 'a') :
    n = nameLength c.rest ∧
      (Announces topLevel prev (c.rest.take n) → startsDeclaration (c.advance n) = .ok false) := by
  have isName : (CodePoint.scalar y).isName = true := by
    rcases letter with rfl | rfl | rfl <;> rfl
  have noDigit : (CodePoint.scalar y).isDigit = false ∧ (CodePoint.scalar y).isDecimal = false ∧
      (CodePoint.scalar y).is '.' = false ∧ (CodePoint.scalar y).is '/' = false := by
    rcases letter with rfl | rfl | rfl <;> decide
  have name : nameLength c.rest ≠ 0 := by
    rw [hr, nameLength_eq_ite, List.head?_cons, Option.any_some, noDigit.2.1,
      if_neg Bool.false_ne_true, Text.countWhile, if_pos isName]
    exact Nat.succ_ne_zero _
  cases h with
  | string isString =>
    obtain ⟨x, u, hu, isQuote⟩ := isQuote_of_stringLength? isString
    obtain ⟨rfl, _⟩ := List.cons.inj (hr.symm.trans hu)
    rw [not_isQuote_of_isName isName] at isQuote
    cases isQuote
  | regex _ isRegex =>
    rw [hr, regexLength?_of_ne noDigit.2.2.2] at isRegex
    cases isRegex
  | number starts =>
    rw [hr, startsNumber, noDigit.1, noDigit.2.2.1] at starts
    cases starts
  | word _ eq _ goesOn => exact ⟨eq, goesOn⟩
  | punctuator _ _ noName | other _ _ _ _ _ _ noName => exact absurd noName name

namespace Cursor

/-- The blanks that may stand between a declaration and its semicolon. -/
def isInlineBlank (x : CodePoint) : Bool := x.is ' ' || x.is '\t'

theorem skipSemicolon_eq (c : Cursor) :
    c.skipSemicolon.1 =
      if (c.rest.drop (Text.countWhile isInlineBlank c.rest)).head?.any (·.is ';') then
        c.advance (Text.countWhile isInlineBlank c.rest + 1)
      else c := by
  have inline : isInlineBlank = fun x => x.is ' ' || x.is '\t' := rfl
  unfold skipSemicolon
  rw [inline]
  dsimp only
  split
  · rename_i atEnd
    rw [if_neg (by simp [atEnd])]
  · rename_i x t hr
    have head : (c.rest.drop (Text.countWhile (fun x => x.is ' ' || x.is '\t') c.rest)).head? =
        some x := by
      rw [hr]
      rfl
    rw [head, Option.any_some]
    split <;> rfl

theorem skips_countWhile {c d : Cursor} {p : CodePoint → Bool}
    (blank : ∀ y, p y = true → y.isBlank = true)
    (h : (c.advance (Text.countWhile p c.rest)).Skips d) : c.Skips d := by
  generalize whole : c.rest = t at h
  induction t generalizing c with
  | nil =>
    rw [Text.countWhile, advance_zero] at h
    exact h
  | cons y t ih =>
    rw [Text.countWhile] at h
    split at h
    · rename_i inside
      refine .blank whole (blank y inside) (ih (c := c.advance 1) (by rw [advance, whole]; rfl) ?_)
      rwa [advance_advance, Nat.add_comm]
    · rwa [advance_zero] at h

end Cursor

/-! ## Sources that agree up to a mark -/

/-- The start of a source, up to a full stop or question mark, stays where it is, in front of
a text that looks like the one that stood there. -/
structure Relocation.Stays (m : Relocation) : Prop where
  start : m.start = 0
  target : m.target = 0
  alike : m.Alike m.stop
  head : (m.place m.stop).rest.head? = m.stop.rest.head?
  mark : ∃ x t, m.stop.rest = .scalar x :: t ∧ (x = '.' ∨ x = '?')
  stray : m.KeepsStray

namespace Relocation

namespace Stays

variable {m : Relocation} {c d e k p q b : Cursor} {x : CodePoint} {t : Text} {f : Found} {n : Nat}

theorem covers (h : m.Stays) (upto : c.Upto m.stop) : m.Covers c :=
  ⟨h.start ▸ Nat.zero_le _, upto⟩

theorem offset_eq (h : m.Stays) (n : Nat) : m.offset n = n := by
  rw [Relocation.offset, h.start, h.target, Nat.sub_zero, Nat.add_zero]

@[simp] theorem place_offset (h : m.Stays) (c : Cursor) : (m.place c).offset = c.offset :=
  h.offset_eq c.offset

theorem onSpan_eq (h : m.Stays) (s : Span) : m.onSpan s = s := by
  cases s
  simp only [onSpan, h.offset_eq]

theorem onValue_eq (h : m.Stays) (v : AttributeValue) : m.onValue v = v := by
  cases v <;> simp only [onValue, h.onSpan_eq]

theorem onAttribute_eq (h : m.Stays) (a : Attribute) : m.onAttribute a = a := by
  obtain ⟨name, origin⟩ := a
  cases origin with
  | written s name value =>
    have each : m.onValue = id := funext h.onValue_eq
    simp only [onAttribute, h.onSpan_eq, each, Option.map_id, id]
  | generated | unwritten => rfl

theorem onAttributes_eq (h : m.Stays) (as : List Attribute) : as.map m.onAttribute = as := by
  rw [funext h.onAttribute_eq, List.map_id']

theorem onFound_eq (h : m.Stays) (f : Found) : m.onFound f = f := by
  have each : m.onElement = id := by
    funext e
    cases e
    simp only [onElement, h.onSpan_eq, h.onAttributes_eq, id]
  rw [onFound, each, List.map_id]

theorem onPart_eq (h : m.Stays) (p : Part) : m.onPart p = p := by
  cases p <;> simp only [onPart, h.onSpan_eq, h.onAttributes_eq, h.onAttribute_eq, h.onValue_eq]

/-- What is read in front of the mark is read there again. -/
theorem reads {p : Part} (h : m.Stays) (reads : Reads false p c f d) (inner : p.isInner = true)
    (covers : m.Covers c) (stops : d.Upto m.stop) (seen : m.Seen p d) :
    Reads false p (m.place c) f (m.place d) := by
  have relocated := reads.relocates inner (.inr h.stray) covers stops seen
  rwa [h.onPart_eq, h.onFound_eq] at relocated

theorem readsBlock (h : m.Stays) (reads : Reads false .block c f d) (covers : m.Covers c)
    (stops : (d.advance 1).Upto m.stop) :
    Reads false .block (m.place c) f (m.place d) ∧ m.Covers (d.advance 1) ∧
      m.place (d.advance 1) = (m.place d).advance 1 := by
  have relocated := (reads.relocates rfl (.inr h.stray)).block reads covers stops
  rwa [h.onFound_eq] at relocated

/-! ## What is seen -/

theorem alike_at (h : m.Stays) (covers : m.Covers c) : m.Alike c :=
  covers.alike covers.upto (.refl _) h.alike

theorem head?_eq (h : m.Stays) (covers : m.Covers c) :
    (m.place c).rest.head? = c.rest.head? := by
  obtain ⟨u, rest, rest', _⟩ := covers.split covers.upto (.refl _)
  rw [rest, rest']
  cases u with
  | nil => exact h.head
  | cons => rfl

theorem nonempty (h : m.Stays) (upto : c.Upto m.stop) : c.rest ≠ [] := by
  obtain ⟨x, t, hr, _⟩ := h.mark
  have := upto.length_le
  rw [hr, List.length_cons] at this
  exact List.ne_nil_of_length_pos (by omega)

theorem skips (h : m.Stays) (covers : m.Covers c) (skips : c.Skips d) (stops : d.Upto m.stop) :
    (m.place c).Skips (m.place d) :=
  covers.skips_of_alike skips stops (h.nonempty stops)
    (h.alike_at (covers.of_upto skips.upto stops))

/-- In front of the mark, a place that begins otherwise is followed by another. -/
theorem advance_upto (h : m.Stays) (upto : c.Upto m.stop) (hr : c.rest = x :: t)
    (noPoint : x ≠ .scalar '.') (noMark : x ≠ .scalar '?') : (c.advance 1).Upto m.stop := by
  obtain ⟨y, u, hs, isMark⟩ := h.mark
  obtain ⟨n, le, same⟩ := upto
  have pos : 0 < n := by
    refine Nat.pos_of_ne_zero ?_
    rintro rfl
    rw [advance_zero] at same
    rw [same] at hs
    obtain ⟨rfl, _⟩ := List.cons.inj (hr.symm.trans hs)
    rcases isMark with rfl | rfl
    · exact noPoint rfl
    · exact noMark rfl
  rw [same]
  exact advance_upto_advance pos le

/-- No run of a class without the mark goes beyond it. -/
theorem countWhile_upto (h : m.Stays) (upto : c.Upto m.stop) {p : CodePoint → Bool}
    (point : p (.scalar '.') = false) (mark : p (.scalar '?') = false) :
    (c.advance (Text.countWhile p c.rest)).Upto m.stop := by
  generalize whole : c.rest = t
  induction t generalizing c with
  | nil => exact absurd whole (h.nonempty upto)
  | cons y t ih =>
    rw [Text.countWhile]
    split
    · rename_i inside
      have next := h.advance_upto upto whole (by rintro rfl; simp [point] at inside)
        (by rintro rfl; simp [mark] at inside)
      have behind := ih next (by rw [advance, whole]; rfl)
      rwa [advance_advance, Nat.add_comm] at behind
    · rwa [advance_zero]

/-- A run that ends in front of the mark, or at it, ends there in front of the other text. -/
theorem countWhile_eq_of_upto (h : m.Stays) (covers : m.Covers c) {p : CodePoint → Bool}
    (stops : (c.advance (Text.countWhile p c.rest)).Upto m.stop) :
    Text.countWhile p (m.place c).rest = Text.countWhile p c.rest := by
  have upto : c.Upto (c.advance (Text.countWhile p c.rest)) := upto_advance (Text.countWhile_le ..)
  obtain ⟨u, rest, rest', same, _⟩ := covers.split upto stops
  have length := Nat.add_left_cancel (congrArg Cursor.offset same)
  have heads := h.head?_eq (covers.of_upto upto stops)
  conv_rhs => rw [rest]
  rw [rest']
  refine Text.countWhile_append (by rw [← rest]; exact Nat.le_of_eq length) fun whole => ?_
  rw [heads]
  exact Text.head_any_of_countWhile whole

theorem countWhile_eq (h : m.Stays) (covers : m.Covers c) {p : CodePoint → Bool}
    (point : p (.scalar '.') = false) (mark : p (.scalar '?') = false) :
    Text.countWhile p (m.place c).rest = Text.countWhile p c.rest :=
  h.countWhile_eq_of_upto covers (h.countWhile_upto covers.upto point mark)

theorem nameLength_eq (h : m.Stays) (covers : m.Covers c) :
    nameLength (m.place c).rest = nameLength c.rest := by
  rw [nameLength_eq_ite, nameLength_eq_ite, h.head?_eq covers,
    h.countWhile_eq covers (by decide) (by decide)]

theorem nameLength_upto (h : m.Stays) (upto : c.Upto m.stop) :
    (c.advance (nameLength c.rest)).Upto m.stop := by
  rw [nameLength_eq_ite]
  split
  · rwa [advance_zero]
  · exact h.countWhile_upto upto (by decide) (by decide)

theorem word_eq (h : m.Stays) (covers : m.Covers c) :
    (m.place c).rest.take (nameLength (m.place c).rest) = c.rest.take (nameLength c.rest) := by
  rw [h.nameLength_eq covers]
  exact covers.take (upto_advance (nameLength_le _)) (h.nameLength_upto covers.upto)

/-- Two characters that are no marks are seen where they stand. -/
theorem startsWith_eq (h : m.Stays) (covers : m.Covers c) {s : String} {a b : Char}
    (hs : s.toList = [a, b]) (noPoint : a ≠ '.') (noMark : a ≠ '?') :
    (m.place c).rest.startsWith s = c.rest.startsWith s := by
  have head := h.head?_eq covers
  cases hr : c.rest with
  | nil => exact absurd hr (h.nonempty covers.upto)
  | cons x t =>
    rw [hr, List.head?_cons] at head
    obtain ⟨u, hu⟩ := List.head?_eq_some_iff.1 head
    rw [hu, Text.startsWith_two hs, Text.startsWith_two hs]
    cases first : x.is a with
    | false => rfl
    | true =>
      obtain rfl := CodePoint.is_iff.1 first
      have covers' := h.covers (h.advance_upto covers.upto hr
        (fun same => noPoint (CodePoint.scalar_inj.1 same))
        (fun same => noMark (CodePoint.scalar_inj.1 same)))
      have heads := h.head?_eq covers'
      rw [covers.place_advance covers', advance, advance, hu, hr] at heads
      exact congrArg (fun y => true && Option.any (·.is b) y) heads

/-- Code starts where it did. -/
theorem codeStart_eq (h : m.Stays) {source : Text} (stops : (codeStart source).Upto m.stop) :
    codeStart (m.place (ofSource source)).rest = m.place (codeStart source) := by
  have covers := h.covers ((codeStart_upto source).trans stops)
  have whole : ofSource (m.place (ofSource source)).rest = m.place (ofSource source) :=
    congrArg (Cursor.mk · (m.place (ofSource source)).rest) (h.place_offset (ofSource source)).symm
  have opens : (m.place (ofSource source)).rest.startsWith "#!" = source.startsWith "#!" :=
    h.startsWith_eq (s := "#!") covers rfl (by decide) (by decide)
  unfold codeStart at stops ⊢
  dsimp only at stops ⊢
  rw [opens, whole]
  split
  · rename_i isOpen
    rw [if_pos isOpen] at stops
    have run := h.countWhile_eq_of_upto covers stops
    exact (congrArg _ run).trans (covers.place_advance (h.covers stops)).symm
  · rfl

end Stays

/-! ## What a stage is told by -/

/-- Where the blanks and comments end that code starts with, and those behind a word there
that attributes of a declaration may stand behind, is in front of the mark. -/
def SeesCode (m : Relocation) (c : Cursor) : Prop :=
  ∃ d, c.Skips d ∧ d.Upto m.stop ∧ (d.AtAttributeWord →
    ∃ e, (d.advance (nameLength d.rest)).Skips e ∧ e.Upto m.stop)

/-- What the rest of a tag begins with is in front of the mark. -/
def SeesTag (m : Relocation) (c : Cursor) : Prop :=
  ∃ q x t, c.Skips q ∧ q.rest = x :: t ∧ (q.advance 1).Upto m.stop ∧
    (x.isTag = false → goesOn x = false) ∧ startsToken x = true

/-- What an element begins with is in front of the mark. -/
def SeesElement (m : Relocation) (c : Cursor) : Prop :=
  ∃ q x t, (c.advance 1).Skips q ∧ q.rest = x :: t ∧ startsToken x = true ∧
    (q.advance 1).Upto m.stop

/-- What has to stand in front of the mark for the stage before to be told. -/
def Sees (m : Relocation) : Stage → Prop
  | ⟨.code _ _ _, c⟩ => m.SeesCode c
  | ⟨.tag _ _ _, c⟩ => m.SeesTag c
  | ⟨.element, c⟩ => m.SeesElement c
  | ⟨.template _, _⟩ | ⟨.children _ _, _⟩ => True

variable {m : Relocation} {c d e k p q b : Cursor} {x : CodePoint} {t : Text} {f : Found} {n : Nat}

theorem SeesTag.seen (sees : m.SeesTag c) (covers : m.Covers c) (a : Attribute) :
    m.Seen (.attribute a) c := by
  obtain ⟨q, x, t, skips, hr, upto, goes, starts⟩ := sees
  exact ⟨q, x, t, skips, hr, upto, covers.skips_of_starts skips hr starts upto,
    goesOn_eq_false_of_skips covers skips hr upto goes⟩

/-- The word in front of the attributes of a declaration begins with a letter. -/
theorem head_of_atAttributeWord (word : c.AtAttributeWord) :
    ∃ y t, c.rest = .scalar y :: t ∧ (y = 'i' ∨ y = 'w' ∨ y = 'a') := by
  have whole := List.take_append_drop (nameLength c.rest) c.rest
  rcases word with word | word
  · rw [word] at whole
    exact ⟨'w', _, whole.symm, .inr (.inl rfl)⟩
  · rw [word] at whole
    exact ⟨'a', _, whole.symm, .inr (.inr rfl)⟩

/-- No word stands where a mark does. -/
theorem not_atAttributeWord {y : Char} (hr : c.rest = .scalar y :: t)
    (other : y ≠ 'w' ∧ y ≠ 'a' ∧ y ≠ 'i') : ¬ c.AtAttributeWord := by
  intro word
  obtain ⟨z, u, hu, letter⟩ := head_of_atAttributeWord word
  obtain ⟨same, _⟩ := List.cons.inj (hr.symm.trans hu)
  obtain rfl := CodePoint.scalar_inj.1 same
  rcases letter with rfl | rfl | rfl
  · exact other.2.2 rfl
  · exact other.1 rfl
  · exact other.2.1 rfl

/-- What a stage of code is told by, from what the next stage is told by. -/
theorem seesCode_of_leads {nested : Bool} {opened : List Opened} {prev : Previous} {z : Stage}
    (leads : Leads ⟨.code nested opened prev, c⟩ z) (stops : z.place.Upto m.stop)
    (sees : m.Sees z) : m.SeesCode c := by
  have plain {d : Cursor} (skips : c.Skips d) (stops : d.Upto m.stop) {y : Char} {t : Text}
      (hr : d.rest = .scalar y :: t) (other : y ≠ 'w' ∧ y ≠ 'a' ∧ y ≠ 'i') : m.SeesCode c :=
    ⟨d, skips, stops, fun word => absurd word (not_atAttributeWord hr other)⟩
  have keyword {d : Cursor} {k : { k : Cursor // d.Past k }}
      (skips : c.Skips d) (lead : Lead.At (!nested && opened.isEmpty) prev d (.declaration k))
      (stops : k.1.Upto m.stop) : m.SeesCode c := by
    obtain ⟨_, _, isKeyword, _⟩ := lead.of_declaration
    refine ⟨d, skips, k.2.upto.trans stops, fun word => ?_⟩
    rw [AtAttributeWord, isKeyword] at word
    exact absurd word (by decide)
  cases leads with
  | codeTemplate skips lead =>
    cases lead.begins with
    | template hr => exact plain skips ((past_of_cons hr).upto.trans stops) hr (by decide)
  | behindTemplate skips lead inner =>
    cases lead.begins with
    | template hr =>
      exact plain skips ((past_of_cons hr).upto.trans (inner.upto.trans stops)) hr (by decide)
  | @codeOpen _ _ _ _ _ b skips lead =>
    cases lead.begins with
    | opener hr =>
      exact plain skips ((past_of_cons hr).upto.trans stops) hr (by cases b <;> decide)
  | @codeShut _ _ o _ _ _ skips lead =>
    obtain ⟨t, hr⟩ := lead.of_closer
    exact plain skips ((past_of_cons hr).upto.trans stops) hr (by cases o.bracket <;> decide)
  | codeElement skips lead =>
    cases lead.begins with
    | element hr => exact plain skips stops hr (by decide)
  | behindElement skips lead inner =>
    cases lead.begins with
    | element hr => exact plain skips (inner.upto.trans stops) hr (by decide)
  | codeAttributes skips lead found hs brace hr =>
    refine keyword skips lead (found.upto.trans ?_)
    exact (upto_advance (stringLength?_bounds hs).2).trans
      (brace.upto.trans ((past_of_cons hr).upto.trans stops))
  | behindDeclaration skips lead inner =>
    refine keyword skips lead (Cursor.Upto.trans ?_ stops)
    cases inner with
    | @declaration _ _ q e n _ _ _ hk hq hs he found inner =>
      exact hq.trans ((upto_advance (stringLength?_bounds hs).2).trans
        (inner.upto.trans e.skipSemicolon.2))
  | @codeToken _ _ _ prev' _ d stop skips lead =>
    refine ⟨d, skips, stop.2.upto.trans stops, fun word => ?_⟩
    obtain ⟨e, behind, stopsE, _⟩ := sees
    cases lead.begins with
    | @token n _ _ isStop lexed =>
      obtain ⟨y, t, hr, letter⟩ := head_of_atAttributeWord word
      rw [(lexed.eq_nameLength hr letter).1] at isStop
      exact ⟨e, isStop ▸ behind, stopsE⟩

/-- What a stage is told by, from what the next stage is told by. -/
theorem sees_of_leads {a z : Stage} (leads : Leads a z) (stops : z.place.Upto m.stop)
    (sees : m.Sees z) : m.Sees a := by
  obtain ⟨task, c⟩ := a
  cases task with
  | code => exact seesCode_of_leads leads stops sees
  | template | children => trivial
  | element =>
    obtain ⟨q, x, t, skips, hr, starts, upto⟩ := leads.element_head
    exact ⟨q, x, t, skips, hr, starts, upto.trans stops⟩
  | tag =>
    obtain ⟨q, x, t, skips, hr, upto, goes⟩ := leads.tag_head
    exact ⟨q, x, t, skips, hr, upto.trans stops, goes⟩

end Relocation

end StyleBinding
