import StyleBinding.Proofs.Reading.Layout
import StyleBinding.Proofs.Reading.Relocation
import StyleBinding.Proofs.Reading.Stack

/-!
# Reading in another place

What is read in a stretch of a source is read wherever the stretch stands, and what is
found there is what was found, moved. Elements and templates end in marks of their own,
so nothing behind them matters; code is read in front of every text that looks alike.
-/

namespace StyleBinding

open Cursor Document Lexeme

namespace Relocation

variable (m : Relocation)

/-! ## What is found -/

/-- Where a span goes. -/
def onSpan (s : Span) : Span :=
  ⟨m.offset s.start, m.offset s.stop, m.offset_mono s.le⟩

/-- A value with its spans moved. -/
def onValue : AttributeValue → AttributeValue
  | .quoted s => .quoted (m.onSpan s)
  | .container s inner => .container (m.onSpan s) (m.onSpan inner)
  | .element s => .element (m.onSpan s)

/-- An attribute with its spans moved. -/
def onAttribute (a : Attribute) : Attribute where
  name := a.name
  origin :=
    match a.origin with
    | .written s name value => .written (m.onSpan s) name (value.map m.onValue)
    | other => other

/-- An element with its spans moved. -/
def onElement (e : Element) : Element where
  name := e.name
  span := m.onSpan e.span
  region := m.onSpan e.region
  selfClosing := e.selfClosing
  parsed := e.parsed.map m.onAttribute
  attributes := e.attributes.map m.onAttribute

/-- What is found in a stretch, as it is found in another place. -/
def onFound (f : Found) : Found := ⟨f.imports, f.elements.map m.onElement⟩

@[simp] theorem onFound_append (f g : Found) : m.onFound (f ++ g) = m.onFound f ++ m.onFound g := by
  change (⟨f.imports ++ g.imports, (f.elements ++ g.elements).map m.onElement⟩ : Found) =
    ⟨f.imports ++ g.imports, f.elements.map m.onElement ++ g.elements.map m.onElement⟩
  rw [List.map_append]

/-- What a stretch is read as, with its spans moved. -/
def onPart : Part → Part
  | .tag before after attributes selfClosing =>
    .tag (m.onSpan before) (m.onSpan after) (attributes.map m.onAttribute) selfClosing
  | .attribute a => .attribute (m.onAttribute a)
  | .value v => .value (m.onValue v)
  | p => p

/-- What has to be seen behind a part: the brace that closes code, and the mark behind
an attribute. -/
def Seen : Part → Cursor → Prop
  | .code _ _ _, d => (m.place d).rest.head? = some (.scalar '}')
  | .attribute _, d => ∃ q x t, d.Skips q ∧ q.rest = x :: t ∧ (q.advance 1).Upto m.stop ∧
      (m.place d).Skips (m.place q) ∧
      (d.rest.head?.any (·.isTag) = false → (m.place d).rest.head?.any goesOn = false)
  | _, _ => True

variable {m} {c d : Cursor}

theorem Covers.onSpan_point {n : Nat} (h : m.Covers c) :
    m.onSpan (.point (c.offset + n)) = .point ((m.place c).offset + n) := by
  have := h.above
  simp only [onSpan, Span.point, offset, place, Span.mk.injEq]
  omega

theorem onSpan_extendTo (s : Span) :
    m.onSpan (s.extendTo d.offset) = (m.onSpan s).extendTo (m.place d).offset := by
  simp only [onSpan, Span.extendTo, offset, place, Span.mk.injEq, true_and]
  omega

end Relocation

/-! ## Parts of nested code -/

/-- Whether a part is one of nested code. -/
def Document.Part.isInner : Part → Bool
  | .code nested _ _ => nested
  | .declaration _ | .importAttributes => false
  | _ => true

theorem Cursor.advance_upto_advance {c : Cursor} {n k : Nat} (le : n ≤ k)
    (le' : k ≤ c.rest.length) : (c.advance n).Upto (c.advance k) := by
  refine ⟨k - n, ?_, ?_⟩
  · rw [advance, List.length_drop]
    omega
  · rw [advance_advance, Nat.add_sub_cancel' le]

theorem Cursor.Past.advance_upto {c d : Cursor} (h : c.Past d) : (c.advance 1).Upto d := by
  obtain ⟨n, pos, le, rfl⟩ := h
  exact advance_upto_advance pos le

theorem Cursor.Upto.advance_one {c d : Cursor} {x : CodePoint} {t : Text} (h : c.Upto d)
    (hr : d.rest = x :: t) : (c.advance 1).Upto (d.advance 1) := by
  obtain ⟨n, le, rfl⟩ := h
  have length := congrArg List.length hr
  simp only [advance, List.length_drop, List.length_cons] at length
  refine ⟨n, ?_, ?_⟩
  · rw [advance, List.length_drop]
    omega
  · rw [advance_advance, advance_advance, Nat.add_comm]

/-- A place is where blanks and comments end, or one of them starts there. -/
theorem Cursor.Skips.eq_or_head {c d : Cursor} (h : c.Skips d) :
    d = c ∨ c.rest.head?.any startsToken = false := by
  rcases h.cases with same | ⟨x, t, hr, isBlank, _⟩ | ⟨n, isComment, _⟩
  · exact .inl same
  · right
    rw [hr, List.head?_cons, Option.any_some, startsToken, isBlank]
    rfl
  · right
    obtain ⟨t, ht⟩ := commentLength?_head isComment
    rw [ht]
    rfl

namespace Document

open Relocation

variable {m : Relocation} {strict : Bool} {c d e : Cursor} {f : Found}

/-- The code point that the name of an attribute begins with. -/
theorem head_of_attributeNameLength {x : CodePoint} {t : Text} (hr : c.rest = x :: t)
    (pos : 0 < attributeNameLength c.rest) :
    startsToken x = true ∧ (x.isTag = false → goesOn x = false) := by
  obtain ⟨y, head, starts⟩ := attributeNameLength_starts pos
  rw [hr] at head
  obtain rfl := Option.some.inj head
  have isTag := CodePoint.isTag_of_isTagStart starts
  refine ⟨startsToken_of_goesOn ?_, fun noTag => absurd isTag (by simp [noTag])⟩
  rw [goesOn, isTag, Bool.true_or, Bool.true_or]

/-- The code point that an attribute begins with. -/
theorem Reads.attribute_head {a : Attribute} {x : CodePoint} {t : Text}
    (h : Reads strict (.attribute a) c f d) (hr : c.rest = x :: t) :
    startsToken x = true ∧ (x.isTag = false → goesOn x = false) := by
  cases h with
  | attributeSpread _ hr' =>
    obtain ⟨rfl, _⟩ := List.cons.inj (hr.symm.trans hr')
    exact ⟨by decide, fun _ => by decide⟩
  | attributeName _ eq pos => exact head_of_attributeNameLength hr (eq ▸ pos)
  | attributeValue _ eq pos => exact head_of_attributeNameLength hr (eq ▸ pos)

/-- The code point that the rest of a tag begins with, behind blanks and comments. -/
theorem Reads.tag_head {before after : Span} {attributes : List Attribute} {selfClosing : Bool}
    (h : Reads strict (.tag before after attributes selfClosing) c f d) :
    ∃ q x t, c.Skips q ∧ q.rest = x :: t ∧ (q.advance 1).Upto d ∧
      (x.isTag = false → goesOn x = false) ∧
      (startsToken x = true ∨ q.rest.startsWith "/>" = true ∧ (q.advance 2).Upto d) := by
  cases h with
  | @tagClosed _ _ q skips closes =>
    have le := le_length_of_startsWith closes
    obtain ⟨u, hu⟩ := List.isPrefixOf_iff_prefix.1 closes
    refine ⟨q, _, _, skips, hu.symm, ?_, fun _ => by decide, .inr ⟨closes, .refl _⟩⟩
    exact (past_advance (c := q) (n := 2) (by decide) le).advance_upto
  | tagOpen skips hr => exact ⟨_, _, _, skips, hr, .refl _, fun _ => by decide, .inl (by decide)⟩
  | tagAttribute skips hr _ _ first rest =>
    obtain ⟨starts, goes⟩ := first.attribute_head hr
    exact ⟨_, _, _, skips, hr, first.accepts.1.advance_upto.trans rest.upto, goes, .inl starts⟩

/-- The mark that closes an element that has no children. -/
theorem relocates_closing (covers : m.Covers c) (skips : c.Skips d)
    (closes : d.rest.startsWith "/>" = true) (stops : (d.advance 2).Upto m.stop) :
    (m.place c).Skips (m.place d) ∧ (m.place d).rest.startsWith "/>" = true := by
  have upto : d.Upto (d.advance 2) := upto_advance (le_length_of_startsWith closes)
  have coversD := covers.of_upto skips.upto (upto.trans stops)
  have closes' : (m.place d).rest.startsWith "/>" = true :=
    (coversD.startsWith_eq (s := "/>") stops.offset_le).trans closes
  obtain ⟨t, ht⟩ := List.isPrefixOf_iff_prefix.1 closes
  obtain ⟨u, hu⟩ := List.isPrefixOf_iff_prefix.1 closes'
  refine ⟨covers.skips skips (upto.trans stops) (by rw [← ht]; exact List.cons_ne_nil _ _) ?_,
    closes'⟩
  rw [skips_self_iff, ← hu]
  exact ⟨rfl, rfl⟩

/-- What no name goes on with, behind blanks and comments that end in the stretch. -/
theorem goesOn_eq_false_of_skips {x : CodePoint} {t : Text} (covers : m.Covers c)
    (skips : c.Skips d) (hr : d.rest = x :: t) (stops : (d.advance 1).Upto m.stop)
    (goes : x.isTag = false → goesOn x = false) (noTag : c.rest.head?.any (·.isTag) = false) :
    (m.place c).rest.head?.any goesOn = false := by
  have length := skips.upto.length_le
  rw [hr, List.length_cons] at length
  obtain ⟨y, u, hc⟩ : ∃ y u, c.rest = y :: u := List.exists_cons_of_length_pos (by omega)
  rw [covers.head?_eq hc ((skips.upto.advance_one hr).trans stops)]
  rcases skips.eq_or_head with rfl | noStart
  · rw [hr, List.head?_cons, Option.any_some] at noTag ⊢
    exact goes noTag
  · rw [hc, List.head?_cons, Option.any_some] at noStart ⊢
    by_contra isName
    rw [startsToken_of_goesOn (Bool.not_eq_false _ ▸ isName)] at noStart
    cases noStart

/-- The rest of a tag shows where what is in front of it ends. -/
theorem Reads.tag_seen {before after : Span} {attributes : List Attribute} {selfClosing : Bool}
    {a : Attribute} (h : Reads strict (.tag before after attributes selfClosing) c f d)
    (covers : m.Covers c) (stops : d.Upto m.stop) : m.Seen (.attribute a) c := by
  obtain ⟨q, x, t, skips, hr, upto, goes, starts⟩ := h.tag_head
  have upto := upto.trans stops
  refine ⟨q, x, t, skips, hr, upto, ?_, goesOn_eq_false_of_skips covers skips hr upto goes⟩
  rcases starts with starts | ⟨closes, two⟩
  · exact covers.skips_of_starts skips hr starts upto
  · exact (relocates_closing covers skips closes (two.trans stops)).1

/-- The code point that a value begins with. -/
theorem Reads.value_head {w : AttributeValue} (h : Reads strict (.value w) c f d) :
    ∃ x t, c.rest = x :: t ∧ startsToken x = true := by
  cases h with
  | valueQuoted _ hr quote => exact ⟨_, _, hr, startsToken_of_isQuote quote⟩
  | valueContainer _ _ hr => exact ⟨_, _, hr, by decide⟩
  | valueElement _ hr => exact ⟨_, _, hr, by decide⟩

theorem startsToken_of_tagNameLength {t : Text} {x : CodePoint} (pos : 0 < tagNameLength (x :: t)) :
    startsToken x = true := by
  refine startsToken_of_goesOn ?_
  rw [tagNameLength] at pos
  split at pos
  · rename_i starts
    rw [goesOn, CodePoint.isTag_of_isTagStart starts, Bool.true_or, Bool.true_or]
  · cases pos

/-- The code point that stands behind the first one of an element, and behind blanks and
comments. -/
theorem Reads.element_head (h : Reads strict .element c f d) :
    ∃ q x t, (c.advance 1).Skips q ∧ q.rest = x :: t ∧ startsToken x = true ∧
      (q.advance 1).Upto d := by
  have named {q e : Cursor} {n : Nat} (skips : (c.advance 1).Skips q)
      (eq : n = tagNameLength q.rest) (pos : 0 < n) (upto : (q.advance n).Upto e) :
      ∃ q x t, (c.advance 1).Skips q ∧ q.rest = x :: t ∧ startsToken x = true ∧
        (q.advance 1).Upto e := by
    have past : q.Past (q.advance n) := past_advance pos (eq ▸ tagNameLength_le _)
    have length := past.length_lt
    obtain ⟨x, t, hr⟩ : ∃ x t, q.rest = x :: t := List.exists_cons_of_length_pos (by omega)
    rw [eq, hr] at pos
    exact ⟨q, x, t, skips, hr, startsToken_of_tagNameLength pos, past.advance_upto.trans upto⟩
  cases h with
  | fragment _ _ skips hr children => exact ⟨_, _, _, skips, hr, by decide, children.upto⟩
  | elementClosed _ _ skips eq pos tag => exact named skips eq pos tag.upto
  | elementOpen _ _ skips eq pos tag children =>
    exact named skips eq pos (tag.upto.trans children.upto)

/-- A code point that a token may start with begins no text that starts with a slash. -/
theorem startsWith_eq_false {x : CodePoint} {t : Text} {s : String}
    (slash : s.toList.head? = some '/') (starts : startsToken x = true) :
    Text.startsWith (x :: t) s = false := by
  obtain ⟨chars, hs⟩ := List.head?_eq_some_iff.1 slash
  rw [Bool.eq_false_iff]
  intro begins
  obtain ⟨u, hu⟩ := List.isPrefixOf_iff_prefix.1 begins
  rw [Text.ofString, hs] at hu
  obtain ⟨rfl, _⟩ := List.cons.inj hu
  exact absurd starts (by decide)

/-! ## One rule in another place -/

/-- What a stretch is read as, it is read as in another place. -/
def Part.Relocates (m : Relocation) (strict : Bool) (p : Part) (c : Cursor) (f : Found)
    (d : Cursor) : Prop :=
  m.Covers c → d.Upto m.stop → m.Seen p d →
    Reads strict (m.onPart p) (m.place c) (m.onFound f) (m.place d)

section Code

variable {opened : List Opened} {prev : Previous} {k : Cursor} {g : Found} {t : Text}

/-- In front of the brace that closes it, code looks alike. -/
theorem alike_of_seen (closes : ∃ t, d.rest = .scalar '}' :: t)
    (seen : m.Seen (.code true opened prev) d) : m.Alike d := by
  obtain ⟨t, hr⟩ := closes
  obtain ⟨s, hs⟩ := List.head?_eq_some_iff.1 seen
  rw [Alike, hr, hs]
  exact .hard (by decide) (by decide)

/-- A place that begins with a mark of the stretch. -/
theorem relocates_mark {x : CodePoint} (covers : m.Covers c) (skips : c.Skips d)
    (hr : d.rest = x :: t) (starts : startsToken x = true) (stops : (d.advance 1).Upto m.stop) :
    (m.place c).Skips (m.place d) ∧ (∃ s, (m.place d).rest = x :: s) ∧ m.Covers (d.advance 1) ∧
      m.place (d.advance 1) = (m.place d).advance 1 := by
  have upto := (past_of_cons hr).upto
  have coversD := covers.of_upto skips.upto (upto.trans stops)
  have covers' := coversD.of_upto upto stops
  exact ⟨covers.skips_of_starts skips hr starts stops, coversD.cons hr stops, covers',
    coversD.place_advance covers'⟩

theorem relocates_codeClose (skips : c.Skips d) (lead : Lead.At false prev d (.closer .curly)) :
    Part.Relocates m strict (.code true [] prev) c {} d := by
  intro covers stops seen
  obtain ⟨t, hr⟩ := lead.of_closer
  obtain ⟨s, hs⟩ := List.head?_eq_some_iff.1 seen
  have nonempty : d.rest ≠ [] := by
    rw [hr]
    exact List.cons_ne_nil _ _
  have alike : m.Alike d := @alike_of_seen m d [] prev ⟨t, hr⟩ seen
  exact .codeClose (covers.skips_of_alike skips stops nonempty alike)
    (Lead.at_closer (b := .curly) hs)

theorem relocates_codeTemplate (skips : c.Skips d) (lead : Lead.At false prev d .template)
    (inner : Reads strict .template (d.advance 1) f e)
    (rest : Reads strict (.code true opened .value) e g k)
    (ihf : Part.Relocates m strict .template (d.advance 1) f e)
    (ihg : Part.Relocates m strict (.code true opened .value) e g k) :
    Part.Relocates m strict (.code true opened prev) c (f ++ g) k := by
  intro covers stops seen
  have stopsE := rest.upto.trans stops
  cases lead.begins with
  | template hr =>
    obtain ⟨skips', ⟨s, hs⟩, covers', advanced⟩ :=
      relocates_mark covers skips hr (by decide) (inner.upto.trans stopsE)
    have inner' := ihf covers' stopsE trivial
    have rest' := ihg (covers'.of_upto inner.upto stopsE) stops seen
    rw [advanced] at inner'
    rw [onFound_append]
    exact .codeTemplate skips' (Lead.at_template hs) inner' rest'

theorem relocates_codeOpen {b : Bracket} (skips : c.Skips d)
    (lead : Lead.At false prev d (.opener b))
    (rest : Reads strict (.code true (⟨b, b = .round && prev.opensHead⟩ :: opened)
      (.mark b.opener.toString)) (d.advance 1) g k)
    (ih : Part.Relocates m strict (.code true (⟨b, b = .round && prev.opensHead⟩ :: opened)
      (.mark b.opener.toString)) (d.advance 1) g k) :
    Part.Relocates m strict (.code true opened prev) c g k := by
  intro covers stops seen
  cases lead.begins with
  | opener hr =>
    obtain ⟨skips', ⟨s, hs⟩, covers', advanced⟩ :=
      relocates_mark covers skips hr (by cases b <;> decide) (rest.upto.trans stops)
    have rest' := ih covers' stops seen
    rw [advanced] at rest'
    exact .codeOpen skips' (Lead.at_opener hs) rest'

theorem relocates_codeShut {o : Opened} (skips : c.Skips d)
    (lead : Lead.At false prev d (.closer o.bracket))
    (rest : Reads strict (.code true opened
      (if o.head then .head else .mark o.bracket.closer.toString)) (d.advance 1) g k)
    (ih : Part.Relocates m strict (.code true opened
      (if o.head then .head else .mark o.bracket.closer.toString)) (d.advance 1) g k) :
    Part.Relocates m strict (.code true (o :: opened) prev) c g k := by
  intro covers stops seen
  obtain ⟨t, hr⟩ := lead.of_closer
  obtain ⟨skips', ⟨s, hs⟩, covers', advanced⟩ :=
    relocates_mark covers skips hr (by cases o.bracket <;> decide) (rest.upto.trans stops)
  have rest' := ih covers' stops seen
  rw [advanced] at rest'
  exact .codeShut skips' (Lead.at_closer hs) rest'

/-- An element takes up two code points at least. -/
theorem Reads.element_two (h : Reads strict .element c f d) :
    ((c.advance 1).advance 1).Upto d := by
  obtain ⟨q, x, t, skips, hr, _, upto⟩ := h.element_head
  exact (skips.upto.advance_one hr).trans upto

/-- An element of the stretch begins where it goes. -/
theorem relocates_element {topLevel : Bool} {prev₂ : Previous} (covers : m.Covers c)
    (skips : c.Skips d) (lead : Lead.At topLevel prev d .element)
    (two : ((d.advance 1).advance 1).Upto m.stop) (like : prev.Like prev₂) :
    (m.place c).Skips (m.place d) ∧ Lead.At topLevel prev₂ (m.place d) .element ∧ m.Covers d := by
  cases lead.begins with
  | @element t hr allowed starts =>
    obtain ⟨y, u, rfl⟩ : ∃ y u, t = y :: u := by
      cases t with
      | nil => cases starts
      | cons y u => exact ⟨y, u, rfl⟩
    have one : (d.advance 1).Upto ((d.advance 1).advance 1) :=
      upto_advance (by simp [advance, hr])
    have coversD := covers.of_upto skips.upto ((past_of_cons hr).upto.trans (one.trans two))
    have skips' := covers.skips_of_starts skips hr (by decide) (one.trans two)
    rw [advance_advance] at two
    obtain ⟨s, hs⟩ := coversD.cons_cons hr two
    exact ⟨skips', Lead.at_element hs (like.expression ▸ allowed) starts, coversD⟩

theorem relocates_codeElement (skips : c.Skips d) (lead : Lead.At false prev d .element)
    (inner : Reads strict .element d f e)
    (rest : Reads strict (.code true opened .value) e g k)
    (ihf : Part.Relocates m strict .element d f e)
    (ihg : Part.Relocates m strict (.code true opened .value) e g k) :
    Part.Relocates m strict (.code true opened prev) c (f ++ g) k := by
  intro covers stops seen
  have stopsE := rest.upto.trans stops
  obtain ⟨skips', lead', coversD⟩ :=
    relocates_element covers skips lead (inner.element_two.trans stopsE) (.refl prev)
  have inner' := ihf coversD stopsE trivial
  have rest' := ihg (coversD.of_upto inner.upto stopsE) stops seen
  rw [onFound_append]
  exact .codeElement skips' lead' inner' rest'

/-- An ordinary token of the stretch stands where it goes. -/
theorem relocates_token {topLevel : Bool} {prev' prev₂ : Previous}
    {stop : { e : Cursor // d.Past e }} (covers : m.Covers c) (skips : c.Skips d)
    (lead : Lead.At topLevel prev d (.token stop prev'))
    (stops : stop.1.Upto m.stop) (alike : m.Alike stop.1)
    (stray : Lead.IsStray prev d → regexLength? (m.place d).rest = none)
    (like : prev.Like prev₂)
    (goesOn : ∀ n, Lead.Lexed topLevel prev d n prev' → stop.1 = d.advance n →
      Lead.Announces topLevel prev₂ (d.rest.take n) →
      Lead.startsDeclaration (m.place stop.1) = .ok false) :
    ∃ past, (m.place c).Skips (m.place d) ∧
      Lead.At topLevel prev₂ (m.place d) (.token ⟨m.place stop.1, past⟩ prev') ∧
      m.Covers stop.1 := by
  obtain ⟨x, t, hr, _⟩ := id lead
  have upto := stop.2.upto.trans stops
  have coversD := covers.of_upto skips.upto upto
  have covers' := coversD.of_upto stop.2.upto stops
  have skips' := covers.skips_of_alike skips upto (by rw [hr]; exact List.cons_ne_nil _ _)
    (coversD.alike stop.2.upto stops alike)
  cases lead.begins with
  | @token n _ _ isStop lexed =>
    obtain ⟨stop, past⟩ := stop
    dsimp only at isStop stops alike covers' ⊢
    subst isStop
    have lexed' := coversD.lexed lexed stops alike stray like (goesOn n lexed rfl)
    rw [coversD.place_advance covers']
    obtain ⟨past', lead'⟩ := lexed'.at_token
    exact ⟨past', skips', lead', covers'⟩

/-- A slash of the stretch that opens a regular expression opens one where it goes. -/
theorem not_isStray_place {prev' : Previous} {stop : { e : Cursor // d.Past e }}
    (covers : m.Covers d) (lead : Lead.At false prev d (.token stop prev'))
    (stops : stop.1.Upto m.stop) (alike : m.Alike stop.1) (plain : ¬ Lead.IsStray prev d) :
    ¬ Lead.IsStray prev (m.place d) := by
  rintro ⟨allowed, slash, noRegex⟩
  obtain ⟨x, t, hr, _⟩ := id lead
  rw [covers.head?_eq hr (stop.2.advance_upto.trans stops)] at slash
  obtain ⟨n, isRegex⟩ : ∃ n, regexLength? d.rest = some n :=
    Option.ne_none_iff_exists'.1 fun none => plain ⟨allowed, slash, none⟩
  obtain ⟨past, lead'⟩ := (Lead.Lexed.regex allowed isRegex).at_token
  cases lead.unique lead'
  obtain ⟨u, rest, rest', same, _⟩ := covers.split past.upto stops
  have length : u.length = n := Nat.add_left_cancel (congrArg Cursor.offset same).symm
  rw [rest] at isRegex
  rw [rest', regexLength?_eq alike isRegex (Nat.le_of_eq length.symm)] at noRegex
  cases noRegex

theorem relocates_codeToken {prev' : Previous} {stop : { e : Cursor // d.Past e }}
    (skips : c.Skips d) (lead : Lead.At false prev d (.token stop prev'))
    (plain : strict = true → ¬ Lead.IsStray prev d)
    (rest : Reads strict (.code true opened prev') stop.1 g k)
    (ih : Part.Relocates m strict (.code true opened prev') stop.1 g k)
    (stray : strict = true ∨ m.KeepsStray) :
    Part.Relocates m strict (.code true opened prev) c g k := by
  intro covers stops seen
  have stopsE := rest.upto.trans stops
  have upto := stop.2.upto.trans stopsE
  have coversD := covers.of_upto skips.upto upto
  have alike := (coversD.of_upto stop.2.upto stopsE).alike rest.upto stops
    (alike_of_seen rest.endsAt seen)
  obtain ⟨past, skips', lead', coversE⟩ :=
    relocates_token covers skips lead stopsE alike (fun isStray => stray.elim
      (fun isStrict => absurd isStray (plain isStrict)) fun keeps => keeps _ _ coversD isStray)
      (.refl prev) fun _ _ _ announces => absurd announces.2.1 Bool.false_ne_true
  exact .codeToken skips' lead'
    (fun isStrict => not_isStray_place coversD lead stopsE alike (plain isStrict))
    (ih coversE stops seen)

/-- Code between braces. -/
theorem Part.Relocates.block (h : Part.Relocates m strict .block c f d)
    (block : Reads strict .block c f d) (covers : m.Covers c) (stops : (d.advance 1).Upto m.stop) :
    Reads strict .block (m.place c) (m.onFound f) (m.place d) ∧ m.Covers (d.advance 1) ∧
      m.place (d.advance 1) = (m.place d).advance 1 := by
  obtain ⟨t, hr⟩ := block.endsAt
  have upto := (past_of_cons hr).upto
  have coversD := covers.of_upto block.upto (upto.trans stops)
  have covers' := coversD.of_upto upto stops
  obtain ⟨s, hs⟩ := coversD.cons hr stops
  refine ⟨h covers (upto.trans stops) ?_, covers', coversD.place_advance covers'⟩
  change (m.place d).rest.head? = _
  rw [hs]
  rfl

end Code

section Template

variable {x : CodePoint} {t : Text} {g : Found}

theorem relocates_templateEnd (hr : c.rest = .scalar '\x60' :: t) :
    Part.Relocates m strict .template c {} (c.advance 1) := by
  intro covers stops _
  obtain ⟨s, hs⟩ := covers.cons hr stops
  rw [covers.place_advance (covers.of_upto (past_of_cons hr).upto stops)]
  exact .templateEnd hs

theorem relocates_templateEscape (hr : c.rest = .scalar '\\' :: x :: t)
    (rest : Reads strict .template (c.advance 2) g d)
    (ih : Part.Relocates m strict .template (c.advance 2) g d) :
    Part.Relocates m strict .template c g d := by
  intro covers stops _
  have upto : c.Upto (c.advance 2) := upto_advance (by rw [hr]; exact Nat.le_add_left 2 _)
  obtain ⟨s, hs⟩ := covers.cons_cons hr (rest.upto.trans stops)
  have covers' := covers.of_upto upto (rest.upto.trans stops)
  have rest' := ih covers' stops trivial
  rw [covers.place_advance covers'] at rest'
  exact .templateEscape hs rest'

theorem relocates_templateBlock (hr : c.rest = .scalar '$' :: .scalar '{' :: t)
    (block : Reads strict .block (c.advance 2) f d)
    (rest : Reads strict .template (d.advance 1) g e)
    (ihf : Part.Relocates m strict .block (c.advance 2) f d)
    (ihg : Part.Relocates m strict .template (d.advance 1) g e) :
    Part.Relocates m strict .template c (f ++ g) e := by
  intro covers stops _
  have upto : c.Upto (c.advance 2) := upto_advance (by rw [hr]; exact Nat.le_add_left 2 _)
  obtain ⟨u, hu⟩ := block.endsAt
  have stopsD := rest.upto.trans stops
  have stops2 := block.upto.trans ((past_of_cons hu).upto.trans stopsD)
  have covers2 := covers.of_upto upto stops2
  obtain ⟨s, hs⟩ := covers.cons_cons hr stops2
  obtain ⟨block', coversD, advanced⟩ := ihf.block block covers2 stopsD
  have rest' := ihg coversD stops trivial
  rw [covers.place_advance covers2] at block'
  rw [advanced] at rest'
  rw [onFound_append]
  exact .templateBlock hs block' rest'

theorem relocates_templatePoint (hr : c.rest = x :: t) (noEscape : x.is '\\' = false)
    (noEnd : x.is '\x60' = false) (noBlock : c.rest.startsWith "$\x7b" = false)
    (rest : Reads strict .template (c.advance 1) g d)
    (ih : Part.Relocates m strict .template (c.advance 1) g d) :
    Part.Relocates m strict .template c g d := by
  intro covers stops _
  have upto := rest.upto.trans stops
  obtain ⟨s, hs⟩ := covers.cons hr upto
  have covers' := covers.of_upto (past_of_cons hr).upto upto
  have rest' := ih covers' stops trivial
  rw [covers.place_advance covers'] at rest'
  -- The mark that ends the template stands behind, so two code points are seen.
  have two : c.offset + 2 ≤ m.stop.offset := by
    have lt := ((rest.accepts 0).1).offset_lt
    have le := stops.offset_le
    simp only [advance] at lt
    omega
  exact .templatePoint hs noEscape noEnd
    ((covers.startsWith_eq (s := "$\x7b") two).trans noBlock) rest'

end Template

section Elements

variable {x : CodePoint} {t : Text} {g : Found} {n : Nat} {k : Cursor} {name : Text}
  {region before after : Span} {attributes : List Attribute} {selfClosing : Bool} {a : Attribute}

/-- What stands behind the first code point of an element. -/
theorem relocates_behind (covers : m.Covers c) (notAtEnd : c.rest ≠ [])
    (skips : (c.advance 1).Skips d) (hr : d.rest = x :: t) (starts : startsToken x = true)
    (stops : (d.advance 1).Upto m.stop) :
    (m.place c).rest ≠ [] ∧ ((m.place c).advance 1).Skips (m.place d) ∧
      (∃ s, (m.place d).rest = x :: s) ∧ m.Covers d ∧ m.Covers (d.advance 1) ∧
      m.place (d.advance 1) = (m.place d).advance 1 := by
  obtain ⟨y, u, hc⟩ := List.exists_cons_of_ne_nil notAtEnd
  have upto := (past_of_cons hr).upto.trans stops
  have covers' := covers.of_upto (past_of_cons hc).upto (skips.upto.trans upto)
  obtain ⟨s, hs⟩ := covers.cons hc (skips.upto.trans upto)
  obtain ⟨skips', starts', coversD, advanced⟩ := relocates_mark covers' skips hr starts stops
  rw [covers.place_advance covers'] at skips'
  exact ⟨by rw [hs]; exact List.cons_ne_nil _ _, skips', starts', covers'.of_upto skips.upto upto,
    coversD, advanced⟩

theorem relocates_fragment (he : c.Upto e) (notAtEnd : c.rest ≠ []) (skips : (c.advance 1).Skips d)
    (hr : d.rest = .scalar '>' :: t) (children : Reads strict (.children []) (d.advance 1) f e)
    (ih : Part.Relocates m strict (.children []) (d.advance 1) f e) :
    Part.Relocates m strict .element c
      ({ elements := [{ name := [], span := c.spanTo e he, region := .point d.offset }] } ++ f)
      e := by
  intro covers stops _
  obtain ⟨notAtEnd', skips', ⟨s, hs⟩, coversD, covers', advanced⟩ :=
    relocates_behind covers notAtEnd skips hr (by decide) (children.upto.trans stops)
  have children' := ih covers' stops trivial
  rw [advanced] at children'
  rw [onFound_append]
  exact .fragment (covers.place_upto he stops) notAtEnd' skips' hs children'

/-- The name of an element in another place, where it is seen where the name ends. -/
theorem relocates_name (covers : m.Covers c) (notAtEnd : c.rest ≠ [])
    (skips : (c.advance 1).Skips d) (eq : n = tagNameLength d.rest) (pos : 0 < n)
    (stops : (d.advance n).Upto m.stop)
    (seen : m.Covers (d.advance n) → m.Seen (.attribute a) (d.advance n)) :
    (m.place c).rest ≠ [] ∧ ((m.place c).advance 1).Skips (m.place d) ∧
      n = tagNameLength (m.place d).rest ∧ (m.place d).rest.take n = d.rest.take n ∧
      m.Covers d ∧ m.Covers (d.advance n) ∧ m.place (d.advance n) = (m.place d).advance n := by
  have past : d.Past (d.advance n) := past_advance pos (eq ▸ tagNameLength_le _)
  have length := past.length_lt
  obtain ⟨x, t, hr⟩ : ∃ x t, d.rest = x :: t := List.exists_cons_of_length_pos (by omega)
  have starts := startsToken_of_tagNameLength (hr ▸ eq ▸ pos)
  obtain ⟨notAtEnd', skips', _, coversD, _⟩ :=
    relocates_behind covers notAtEnd skips hr starts (past.advance_upto.trans stops)
  have coversN := coversD.of_upto past.upto stops
  have ends : (d.advance n).rest.head?.any (·.isTag) = false := by
    cases head : (d.advance n).rest.head? with
    | none => rfl
    | some y => exact tagNameLength_stops (eq ▸ pos) (eq ▸ head)
  obtain ⟨_, _, _, _, _, _, _, goes⟩ := seen coversN
  exact ⟨notAtEnd', skips', (coversD.tagNameLength_eq eq pos stops (goes ends)).symm,
    coversD.take past.upto stops, coversD, coversN, coversD.place_advance coversN⟩

theorem relocates_elementClosed (he : c.Upto e) (notAtEnd : c.rest ≠ [])
    (skips : (c.advance 1).Skips d) (eq : n = tagNameLength d.rest) (pos : 0 < n)
    (tag : Reads strict (.tag (.point (d.offset + n)) region attributes true) (d.advance n) f e)
    (ih : Part.Relocates m strict (.tag (.point (d.offset + n)) region attributes true)
      (d.advance n) f e) :
    Part.Relocates m strict .element c
      ({ elements := [{
          name := d.rest.take n
          span := c.spanTo e he
          region
          selfClosing := true
          parsed := attributes }] } ++ f) e := by
  intro covers stops _
  obtain ⟨notAtEnd', skips', eq', name, coversD, coversN, advanced⟩ :=
    relocates_name (a := ⟨none, .unwritten⟩) covers notAtEnd skips eq pos (tag.upto.trans stops)
      fun coversN => tag.tag_seen coversN stops
  have tag' := ih coversN stops trivial
  simp only [onPart, coversD.onSpan_point, advanced] at tag'
  have element := Reads.elementClosed (covers.place_upto he stops) notAtEnd' skips' eq' pos tag'
  rw [name] at element
  rw [onFound_append]
  exact element

theorem relocates_elementOpen (hk : c.Upto k) (notAtEnd : c.rest ≠ [])
    (skips : (c.advance 1).Skips d) (eq : n = tagNameLength d.rest) (pos : 0 < n)
    (tag : Reads strict (.tag (.point (d.offset + n)) region attributes false) (d.advance n) f e)
    (children : Reads strict (.children (d.rest.take n)) e g k)
    (ihf : Part.Relocates m strict (.tag (.point (d.offset + n)) region attributes false)
      (d.advance n) f e)
    (ihg : Part.Relocates m strict (.children (d.rest.take n)) e g k) :
    Part.Relocates m strict .element c
      ({ elements := [{
          name := d.rest.take n
          span := c.spanTo k hk
          region
          parsed := attributes }] } ++ (f ++ g)) k := by
  intro covers stops _
  have stopsE := children.upto.trans stops
  obtain ⟨notAtEnd', skips', eq', name, coversD, coversN, advanced⟩ :=
    relocates_name (a := ⟨none, .unwritten⟩) covers notAtEnd skips eq pos (tag.upto.trans stopsE)
      fun coversN => tag.tag_seen coversN stopsE
  have tag' := ihf coversN stopsE trivial
  have children' := ihg (coversN.of_upto tag.upto stopsE) stops trivial
  simp only [onPart, coversD.onSpan_point, advanced] at tag' children'
  rw [← name] at children'
  have element :=
    Reads.elementOpen (covers.place_upto hk stops) notAtEnd' skips' eq' pos tag' children'
  rw [name] at element
  rw [onFound_append, onFound_append]
  exact element

theorem relocates_tagClosed (skips : c.Skips d) (closes : d.rest.startsWith "/>" = true) :
    Part.Relocates m strict (.tag region region [] true) c {} (d.advance 2) := by
  intro covers stops _
  obtain ⟨skips', closes'⟩ := relocates_closing covers skips closes stops
  have upto : d.Upto (d.advance 2) := upto_advance (le_length_of_startsWith closes)
  have coversD := covers.of_upto skips.upto (upto.trans stops)
  rw [coversD.place_advance (coversD.of_upto upto stops)]
  exact .tagClosed skips' closes'

theorem relocates_tagOpen (skips : c.Skips d) (hr : d.rest = .scalar '>' :: t) :
    Part.Relocates m strict (.tag region region [] false) c {} (d.advance 1) := by
  intro covers stops _
  obtain ⟨skips', ⟨s, hs⟩, _, advanced⟩ := relocates_mark covers skips hr (by decide) stops
  rw [advanced]
  exact .tagOpen skips' hs

theorem relocates_tagAttribute (skips : c.Skips d) (hr : d.rest = x :: t)
    (noEnd : x.is '>' = false) (first : Reads strict (.attribute a) d f e)
    (rest : Reads strict (.tag (before.extendTo e.offset) after attributes selfClosing) e g k)
    (ihf : Part.Relocates m strict (.attribute a) d f e)
    (ihg : Part.Relocates m strict (.tag (before.extendTo e.offset) after attributes selfClosing)
      e g k) :
    Part.Relocates m strict (.tag before after (a :: attributes) selfClosing) c (f ++ g) k := by
  intro covers stops _
  have stopsE := rest.upto.trans stops
  obtain ⟨starts, _⟩ := first.attribute_head hr
  obtain ⟨skips', ⟨s, hs⟩, _, _⟩ :=
    relocates_mark covers skips hr starts (first.accepts.1.advance_upto.trans stopsE)
  have coversD := covers.of_upto skips.upto (first.upto.trans stopsE)
  have coversE := coversD.of_upto first.upto stopsE
  have first' := ihf coversD stopsE (rest.tag_seen coversE stops)
  have rest' := ihg coversE stops trivial
  simp only [onPart, onSpan_extendTo] at first' rest'
  rw [onFound_append]
  exact .tagAttribute skips' hs (hs ▸ startsWith_eq_false rfl starts) noEnd first' rest'

/-- A block between braces of the stretch. -/
theorem relocates_braces (covers : m.Covers c) (hr : c.rest = .scalar '{' :: t)
    (block : Reads strict .block (c.advance 1) f d)
    (ih : Part.Relocates m strict .block (c.advance 1) f d) (stops : (d.advance 1).Upto m.stop) :
    (∃ s, (m.place c).rest = .scalar '{' :: s) ∧
      Reads strict .block ((m.place c).advance 1) (m.onFound f) (m.place d) ∧
      d.Upto m.stop ∧ m.Covers (c.advance 1) ∧ m.Covers (d.advance 1) ∧
      m.place (c.advance 1) = (m.place c).advance 1 ∧
      m.place (d.advance 1) = (m.place d).advance 1 := by
  obtain ⟨u, hu⟩ := block.endsAt
  have stopsD := (past_of_cons hu).upto.trans stops
  have stops1 := block.upto.trans stopsD
  have covers' := covers.of_upto (past_of_cons hr).upto stops1
  have advanced := covers.place_advance covers'
  obtain ⟨block', coversD, advancedD⟩ := ih.block block covers' stops
  rw [advanced] at block'
  exact ⟨covers.cons hr stops1, block', stopsD, covers', coversD, advanced, advancedD⟩

theorem relocates_attributeSpread (hd : c.Upto (d.advance 1)) (hr : c.rest = .scalar '{' :: t)
    (block : Reads strict .block (c.advance 1) f d)
    (ih : Part.Relocates m strict .block (c.advance 1) f d) :
    Part.Relocates m strict (.attribute ⟨none, .written (c.spanTo _ hd) none none⟩) c f
      (d.advance 1) := by
  intro covers stops _
  obtain ⟨⟨s, hs⟩, block', _, _, _, _, advanced⟩ := relocates_braces covers hr block ih stops
  have spread (q : Cursor) (same : q = (m.place d).advance 1) (hq : (m.place c).Upto q) :
      Reads strict (.attribute ⟨none, .written ((m.place c).spanTo q hq) none none⟩) (m.place c)
        (m.onFound f) q := by
    subst same
    exact .attributeSpread hq hs block'
  exact spread _ advanced (covers.place_upto hd stops)

theorem relocates_attributeName (hn : c.Upto (c.advance n)) (eq : n = attributeNameLength c.rest)
    (pos : 0 < n) (skips : (c.advance n).Skips d) (noValue : d.rest.head? ≠ some (.scalar '=')) :
    Part.Relocates m strict (.attribute ⟨some (c.rest.take n),
      .written (c.spanTo _ hn) (some (c.rest.take n)) none⟩) c {} (c.advance n) := by
  intro covers stops seen
  obtain ⟨q, x, t, skipsQ, hr, upto, skips', goes⟩ := seen
  obtain rfl := skips.unique skipsQ
  have coversN := covers.of_upto hn stops
  have coversD := coversN.of_upto skips.upto ((past_of_cons hr).upto.trans upto)
  have advanced := covers.place_advance coversN
  have eq' := covers.attributeNameLength_eq eq pos stops
    (goes (eq ▸ attributeNameLength_stops (eq ▸ pos)))
  have name := covers.take hn stops
  rw [← coversD.head?_eq hr upto] at noValue
  have bare (q : Cursor) (same : q = (m.place c).advance n) (hq : (m.place c).Upto q) :
      Reads strict (.attribute ⟨some ((m.place c).rest.take n),
        .written ((m.place c).spanTo q hq) (some ((m.place c).rest.take n)) none⟩)
        (m.place c) {} q := by
    subst same
    exact .attributeName hq eq'.symm pos (advanced ▸ skips') noValue
  have bare := bare _ advanced (covers.place_upto hn stops)
  rw [name] at bare
  exact bare

/-- The value of an attribute begins where it goes, behind the name and the equals sign. -/
theorem relocates_valued {v : Cursor} {y : CodePoint} {u : Text} (covers : m.Covers c)
    (eq : n = attributeNameLength c.rest) (pos : 0 < n) (skips : (c.advance n).Skips d)
    (hr : d.rest = .scalar '=' :: t) (skips' : (d.advance 1).Skips v) (hv : v.rest = y :: u)
    (starts : startsToken y = true) (stops : (v.advance 1).Upto m.stop) :
    n = attributeNameLength (m.place c).rest ∧ (m.place c).rest.take n = c.rest.take n ∧
      ((m.place c).advance n).Skips (m.place d) ∧
      (∃ s, (m.place d).rest = .scalar '=' :: s) ∧ ((m.place d).advance 1).Skips (m.place v) ∧
      (∃ s, (m.place v).rest = y :: s) ∧ m.Covers v := by
  have stopsV := (past_of_cons hv).upto.trans stops
  have stopsD := skips'.upto.trans stopsV
  have hn : c.Upto (c.advance n) := upto_advance (eq ▸ attributeNameLength_le _)
  have stopsN := skips.upto.trans ((past_of_cons hr).upto.trans stopsD)
  have coversN := covers.of_upto hn stopsN
  obtain ⟨skipsD, starts', covers', advanced⟩ :=
    relocates_mark coversN skips hr (by decide) stopsD
  obtain ⟨skipsV, startsV, _⟩ := relocates_mark covers' skips' hv starts stops
  have ends := goesOn_eq_false_of_skips coversN skips hr stopsD (fun _ => by decide)
    (eq ▸ attributeNameLength_stops (eq ▸ pos))
  rw [covers.place_advance coversN] at skipsD
  rw [advanced] at skipsV
  exact ⟨(covers.attributeNameLength_eq eq pos stopsN ends).symm, covers.take hn stopsN, skipsD,
    starts', skipsV, startsV, covers'.of_upto skips'.upto stopsV⟩

theorem relocates_attributeValue {v : Cursor} {w : AttributeValue} (he : c.Upto e)
    (eq : n = attributeNameLength c.rest) (pos : 0 < n) (skips : (c.advance n).Skips d)
    (hr : d.rest = .scalar '=' :: t) (skips' : (d.advance 1).Skips v)
    (value : Reads strict (.value w) v f e) (ih : Part.Relocates m strict (.value w) v f e) :
    Part.Relocates m strict (.attribute ⟨some (c.rest.take n),
      .written (c.spanTo e he) (some (c.rest.take n)) (some w)⟩) c f e := by
  intro covers stops _
  obtain ⟨x, u, hv, starts⟩ := value.value_head
  obtain ⟨eq', name, skipsD, ⟨s, hs⟩, skipsV, _, coversV⟩ := relocates_valued covers eq pos skips hr
    skips' hv starts (value.accepts.1.advance_upto.trans stops)
  have value' := ih coversV stops trivial
  have valued := Reads.attributeValue (covers.place_upto he stops) eq' pos skipsD hs skipsV value'
  rw [name] at valued
  exact valued

theorem relocates_valueQuoted (hn : c.Upto (c.advance (n + 2))) (hr : c.rest = x :: t)
    (quote : isQuote x = true) (closes : Text.offsetOf? [x] t = some n) :
    Part.Relocates m strict (.value (.quoted (c.spanTo _ hn))) c {} (c.advance (n + 2)) := by
  intro covers stops _
  obtain ⟨u, rest, rest', same, _⟩ := covers.split hn stops
  have length : u.length = n + 2 := Nat.add_left_cancel (congrArg Cursor.offset same).symm
  obtain _ | ⟨y, u⟩ := u
  · cases length
  obtain ⟨rfl, rfl⟩ := List.cons.inj (hr.symm.trans rest)
  have closes' := Text.offsetOf?_append (w := (m.place (c.advance (n + 2))).rest) closes
    (by simp only [List.length_cons, List.length_nil] at length ⊢; omega)
  have quoted (q : Cursor) (same : q = (m.place c).advance (n + 2)) (hq : (m.place c).Upto q) :
      Reads strict (.value (.quoted ((m.place c).spanTo q hq))) (m.place c) {} q := by
    subst same
    exact .valueQuoted hq rest' quote closes'
  exact quoted _ (covers.place_advance (covers.of_upto hn stops)) (covers.place_upto hn stops)

theorem relocates_valueContainer (hd : (c.advance 1).Upto d) (hc : c.Upto (d.advance 1))
    (hr : c.rest = .scalar '{' :: t) (block : Reads strict .block (c.advance 1) f d)
    (ih : Part.Relocates m strict .block (c.advance 1) f d) :
    Part.Relocates m strict (.value (.container (c.spanTo _ hc) ((c.advance 1).spanTo d hd))) c f
      (d.advance 1) := by
  intro covers stops _
  obtain ⟨⟨s, hs⟩, block', stopsD, covers', _, advanced, advancedD⟩ :=
    relocates_braces covers hr block ih stops
  have container (p q : Cursor) (first : p = (m.place c).advance 1)
      (last : q = (m.place d).advance 1) (hp : p.Upto (m.place d)) (hq : (m.place c).Upto q) :
      Reads strict (.value (.container ((m.place c).spanTo q hq) (p.spanTo (m.place d) hp)))
        (m.place c) (m.onFound f) q := by
    subst first last
    exact .valueContainer hp hq hs block'
  exact container _ _ advanced advancedD (covers'.place_upto hd stopsD)
    (covers.place_upto hc stops)

theorem relocates_valueElement (hd : c.Upto d) (hr : c.rest = .scalar '<' :: t)
    (inner : Reads strict .element c f d) (ih : Part.Relocates m strict .element c f d) :
    Part.Relocates m strict (.value (.element (c.spanTo d hd))) c f d := by
  intro covers stops _
  obtain ⟨s, hs⟩ := covers.cons hr ((inner.accepts).1.advance_upto.trans stops)
  exact .valueElement (covers.place_upto hd stops) hs (ih covers stops trivial)

theorem relocates_childrenBlock (hr : c.rest = .scalar '{' :: t)
    (block : Reads strict .block (c.advance 1) f d)
    (rest : Reads strict (.children name) (d.advance 1) g e)
    (ihf : Part.Relocates m strict .block (c.advance 1) f d)
    (ihg : Part.Relocates m strict (.children name) (d.advance 1) g e) :
    Part.Relocates m strict (.children name) c (f ++ g) e := by
  intro covers stops _
  obtain ⟨⟨s, hs⟩, block', _, _, coversD, _, advanced⟩ :=
    relocates_braces covers hr block ihf (rest.upto.trans stops)
  have rest' := ihg coversD stops trivial
  rw [advanced] at rest'
  rw [onFound_append]
  exact .childrenBlock hs block' rest'

theorem relocates_childrenClose (hr : c.rest = .scalar '<' :: t) (skips : (c.advance 1).Skips d)
    (closing : d.rest.startsWith "/" = true) (stop : Text.offsetOf? ">" d.rest = some n)
    (same : Text.trim ((d.rest.take n).drop 1) = name) :
    Part.Relocates m strict (.children name) c {} (d.advance (n + 1)) := by
  intro covers stops _
  have le : n + 1 ≤ d.rest.length := Text.offsetOf?_le stop
  have hn : d.Upto (d.advance (n + 1)) := upto_advance le
  have stopsD := hn.trans stops
  have covers' : m.Covers (c.advance 1) :=
    covers.of_upto (past_of_cons hr).upto (skips.upto.trans stopsD)
  have coversD := covers'.of_upto skips.upto stopsD
  obtain ⟨s, hs⟩ := covers.cons hr (skips.upto.trans stopsD)
  -- The mark that closes the tag stands behind the slash, so two code points are seen.
  obtain ⟨u, hu⟩ := List.isPrefixOf_iff_prefix.1 closing
  change .scalar '/' :: u = d.rest at hu
  rw [← hu, List.length_cons] at le
  have pos : 0 < n := by
    rw [← hu, Text.offsetOf?, if_neg (by simp [Text.ofString, List.isPrefixOf])] at stop
    obtain ⟨k, _, rfl⟩ := Option.map_eq_some_iff.1 stop
    exact Nat.succ_pos k
  obtain ⟨y, u, rfl⟩ : ∃ y v, u = y :: v := List.exists_cons_of_length_pos (by omega)
  have two : (d.advance 2).Upto m.stop :=
    (advance_upto_advance (k := n + 1) (by omega) (Text.offsetOf?_le stop)).trans stops
  obtain ⟨v, hv⟩ := coversD.cons_cons hu.symm two
  have clear := skips_self_iff.1 skips.again
  rw [← hu] at clear
  have skips' := covers'.skips skips stopsD (by rw [← hu]; exact List.cons_ne_nil _ _)
    (skips_self_iff.2 (hv ▸ clear))
  obtain ⟨z, rest, rest', same', advanced⟩ := coversD.split hn stops
  have length : z.length = n + 1 := Nat.add_left_cancel (congrArg Cursor.offset same').symm
  rw [rest] at stop same
  rw [covers.place_advance covers'] at skips'
  rw [coversD.place_advance (coversD.of_upto hn stops)]
  refine .childrenClose hs skips' (hv ▸ rfl) (rest' ▸ Text.offsetOf?_append stop ?_) ?_
  · exact Nat.le_of_eq length.symm
  · rw [rest', List.take_append_of_le_length (by omega)]
    rwa [List.take_append_of_le_length (by omega)] at same

theorem relocates_childrenElement (hr : c.rest = .scalar '<' :: t)
    (skips : (c.advance 1).Skips d) (inner : Reads strict .element c f e)
    (rest : Reads strict (.children name) e g k)
    (ihf : Part.Relocates m strict .element c f e)
    (ihg : Part.Relocates m strict (.children name) e g k) :
    Part.Relocates m strict (.children name) c (f ++ g) k := by
  intro covers stops _
  have stopsE := rest.upto.trans stops
  obtain ⟨q, x, u, skipsQ, hq, starts, upto⟩ := inner.element_head
  obtain rfl := skips.unique skipsQ
  have notAtEnd : c.rest ≠ [] := by
    rw [hr]
    exact List.cons_ne_nil _ _
  obtain ⟨_, skips', ⟨v, hv⟩, _⟩ :=
    relocates_behind covers notAtEnd skips hq starts (upto.trans stopsE)
  obtain ⟨s, hs⟩ := covers.cons hr (inner.accepts.1.advance_upto.trans stopsE)
  have inner' := ihf covers stopsE trivial
  have rest' := ihg (covers.of_upto inner.upto stopsE) stops trivial
  rw [onFound_append]
  exact .childrenElement hs skips' (hv ▸ startsWith_eq_false rfl starts) inner' rest'

theorem relocates_childrenText (hr : c.rest = x :: t) (noBlock : x.is '{' = false)
    (noElement : x.is '<' = false)
    (rest : Reads strict (.children name)
      (c.advance (Text.countWhile (fun y => !(y.is '{' || y.is '<')) t + 1)) g e)
    (ih : Part.Relocates m strict (.children name)
      (c.advance (Text.countWhile (fun y => !(y.is '{' || y.is '<')) t + 1)) g e) :
    Part.Relocates m strict (.children name) c g e := by
  intro covers stops _
  generalize goes : (fun y : CodePoint => !(y.is '{' || y.is '<')) = p at *
  have past := (rest.accepts 0).1.offset_lt
  have whole := stops.offset_le
  have stops' := rest.upto.trans stops
  obtain ⟨u, here, here', same, _⟩ := covers.split covers.upto (.refl _)
  have length : m.stop.offset = c.offset + u.length := congrArg Cursor.offset same
  simp only [advance] at past
  obtain _ | ⟨y, u⟩ := u
  · rw [List.length_nil] at length
    omega
  rw [List.length_cons] at length
  rw [List.cons_append] at here here'
  obtain ⟨rfl, rfl⟩ := List.cons.inj (hr.symm.trans here)
  -- The mark that the text ends at stands in the stretch.
  have count : Text.countWhile p (u ++ (m.place m.stop).rest) =
      Text.countWhile p (u ++ m.stop.rest) :=
    Text.countWhile_append (by omega) (by omega)
  have upto : c.Upto (c.advance (Text.countWhile p (u ++ m.stop.rest) + 1)) :=
    upto_advance (by
      rw [hr, List.length_cons]
      exact Nat.succ_le_succ (Text.countWhile_le ..))
  have covers' := covers.of_upto upto stops'
  have rest' := ih covers' stops trivial
  rw [covers.place_advance covers', ← count] at rest'
  subst goes
  exact .childrenText here' noBlock noElement rest'

end Elements

/-! ## The stretch in another place -/

/-- What is read in a stretch is read wherever the stretch stands, and what is found
there is moved with it. -/
theorem Reads.relocates {p : Part} (h : Reads strict p c f d) (inner : p.isInner = true)
    (stray : strict = true ∨ m.KeepsStray) : p.Relocates m strict c f d := by
  induction h with
  | codeEnd | declaration | attributesNone | attributesBlock => cases inner
  | @codeDeclaration nested _ _ _ _ _ _ _ _ _ _ lead =>
    obtain rfl : nested = true := inner
    cases lead.of_declaration.1
  | codeClose skips lead => exact relocates_codeClose skips lead
  | @codeTemplate nested _ _ _ _ _ _ _ _ skips lead template rest ihf ihg =>
    obtain rfl : nested = true := inner
    exact relocates_codeTemplate skips lead template rest (ihf rfl) (ihg rfl)
  | @codeOpen nested _ _ _ _ _ _ _ skips lead rest ih =>
    obtain rfl : nested = true := inner
    exact relocates_codeOpen skips lead rest (ih rfl)
  | @codeShut nested _ _ _ _ _ _ _ skips lead rest ih =>
    obtain rfl : nested = true := inner
    exact relocates_codeShut skips lead rest (ih rfl)
  | @codeElement nested _ _ _ _ _ _ _ _ skips lead element rest ihf ihg =>
    obtain rfl : nested = true := inner
    exact relocates_codeElement skips lead element rest (ihf rfl) (ihg rfl)
  | @codeToken nested _ _ _ _ _ _ _ _ skips lead plain rest ih =>
    obtain rfl : nested = true := inner
    exact relocates_codeToken skips lead plain rest (ih rfl) stray
  | templateEnd hr => exact relocates_templateEnd hr
  | templateEscape hr rest ih => exact relocates_templateEscape hr rest (ih rfl)
  | templateBlock hr block rest ihf ihg =>
    exact relocates_templateBlock hr block rest (ihf rfl) (ihg rfl)
  | templatePoint hr noEscape noEnd noBlock rest ih =>
    exact relocates_templatePoint hr noEscape noEnd noBlock rest (ih rfl)
  | fragment he notAtEnd skips hr children ih =>
    exact relocates_fragment he notAtEnd skips hr children (ih rfl)
  | elementClosed he notAtEnd skips eq pos tag ih =>
    exact relocates_elementClosed he notAtEnd skips eq pos tag (ih rfl)
  | elementOpen hk notAtEnd skips eq pos tag children ihf ihg =>
    exact relocates_elementOpen hk notAtEnd skips eq pos tag children (ihf rfl) (ihg rfl)
  | tagClosed skips closes => exact relocates_tagClosed skips closes
  | tagOpen skips hr => exact relocates_tagOpen skips hr
  | tagAttribute skips hr _ noEnd first rest ihf ihg =>
    exact relocates_tagAttribute skips hr noEnd first rest (ihf rfl) (ihg rfl)
  | attributeSpread hd hr block ih => exact relocates_attributeSpread hd hr block (ih rfl)
  | attributeName hn eq pos skips noValue => exact relocates_attributeName hn eq pos skips noValue
  | attributeValue he eq pos skips hr skips' value ih =>
    exact relocates_attributeValue he eq pos skips hr skips' value (ih rfl)
  | valueQuoted hn hr quote closes => exact relocates_valueQuoted hn hr quote closes
  | valueContainer hd hc hr block ih => exact relocates_valueContainer hd hc hr block (ih rfl)
  | valueElement hd hr element ih => exact relocates_valueElement hd hr element (ih rfl)
  | childrenBlock hr block rest ihf ihg =>
    exact relocates_childrenBlock hr block rest (ihf rfl) (ihg rfl)
  | childrenClose hr skips closing stop same =>
    exact relocates_childrenClose hr skips closing stop same
  | childrenElement hr skips _ element rest ihf ihg =>
    exact relocates_childrenElement hr skips element rest (ihf rfl) (ihg rfl)
  | childrenText hr noBlock noElement rest ih =>
    exact relocates_childrenText hr noBlock noElement rest (ih rfl)

end Document

end StyleBinding
