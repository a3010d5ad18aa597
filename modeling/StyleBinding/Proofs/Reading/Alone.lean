import StyleBinding.Proofs.Reading.Path
import StyleBinding.Proofs.Reading.Placement
import StyleBinding.Proofs.Reading.Relocated

/-!
# Elements read alone

Every element of a source was read in a stretch of its own, and the elements that lie
inside its span are the ones found in that stretch (`Document.Reads.exists_element`). The
stretch is read wherever it stands, so the text of an element that code may start with is a
source of its own: the elements of that source are those inside the element, as they lie
from its start.
-/

namespace StyleBinding

open Cursor Document Lexeme

/-! ## Moved elements -/

/-- A value whose offsets are moved on by a distance. -/
def AttributeValue.shift (distance : Nat) : AttributeValue → AttributeValue
  | quoted s => quoted (s.shift distance)
  | container s inner => container (s.shift distance) (inner.shift distance)
  | element s => element (s.shift distance)

/-- An attribute whose offsets are moved on by a distance. -/
def Attribute.shift (distance : Nat) (a : Attribute) : Attribute where
  name := a.name
  origin :=
    match a.origin with
    | .written s name value => .written (s.shift distance) name (value.map (·.shift distance))
    | other => other

/-- An element whose offsets are moved on by a distance. -/
def Element.shift (distance : Nat) (e : Element) : Element where
  name := e.name
  span := e.span.shift distance
  region := e.region.shift distance
  selfClosing := e.selfClosing
  parsed := e.parsed.map (·.shift distance)
  attributes := e.attributes.map (·.shift distance)

namespace Relocation

variable {m : Relocation}

theorem shift_onSpan (target : m.target = 0) {s : Span} (le : m.start ≤ s.start) :
    (m.onSpan s).shift m.start = s := by
  obtain ⟨start, stop, between⟩ := s
  change m.start ≤ start at le
  simp only [onSpan, Span.shift, offset, target, Span.mk.injEq]
  omega

theorem shift_onValue (target : m.target = 0) {v : AttributeValue} (laid : v.Laid)
    (le : m.start ≤ v.span.start) : (m.onValue v).shift m.start = v := by
  cases laid with
  | quoted => exact congrArg AttributeValue.quoted (shift_onSpan target le)
  | @container s inner start =>
    have within : m.start ≤ inner.start := Nat.le_trans le (start ▸ Nat.le_succ s.start)
    exact congrArg₂ AttributeValue.container (shift_onSpan target le) (shift_onSpan target within)
  | element => exact congrArg AttributeValue.element (shift_onSpan target le)

theorem shift_onAttribute (target : m.target = 0) {a : Attribute} {s : Span} (laid : a.Laid s)
    (le : m.start ≤ s.start) : (m.onAttribute a).shift m.start = a := by
  cases laid with
  | spread | bare => simp only [onAttribute, Attribute.shift, Option.map_none,
      shift_onSpan target le]
  | valued _ start _ value =>
    simp only [onAttribute, Attribute.shift, Option.map_some, shift_onSpan target le,
      shift_onValue target value (by omega)]

/-- An element that lies behind the start of a stretch is what it becomes there, moved on by
that start. -/
theorem shift_onElement (target : m.target = 0) {e : Element} (laid : e.Laid)
    (le : m.start ≤ e.span.start) : (m.onElement e).shift m.start = e := by
  have region := Nat.le_trans le (Nat.le_of_lt laid.start_lt)
  have each : e.parsed.map (fun a => (m.onAttribute a).shift m.start) = e.parsed := by
    refine (List.map_congr_left fun a member => ?_).trans (List.map_id e.parsed)
    obtain ⟨s, laidA, above, _⟩ := laid.laidOut.bounds member
    exact shift_onAttribute target laidA (Nat.le_trans region above)
  have attributes := laid.unchanged
  cases e
  simp only [onElement, Element.shift, List.map_map, Function.comp_def] at *
  subst attributes
  rw [shift_onSpan target le, shift_onSpan target region, each]

end Relocation

/-! ## The stretch of an element -/

instance (s t : Span) : Decidable (s.Within t) := inferInstanceAs (Decidable (_ ∧ _))

namespace Found

/-- The elements among those found that lie inside a span. -/
def inside (f : Found) (s : Span) : List Element := f.elements.filter (·.span.Within s)

variable {f g : Found} {s : Span} {low high : Nat}

theorem inside_append : (f ++ g).inside s = f.inside s ++ g.inside s :=
  List.filter_append f.elements g.elements

/-- No element of a stretch lies inside a span that lies in front of the stretch or behind
it, because no element is empty. -/
theorem Between.inside_eq_nil (h : f.Between low high) (laid : Element.Forest f.elements)
    (apart : s.stop ≤ low ∨ high ≤ s.start) : f.inside s = [] := by
  refine List.filter_eq_nil_iff.2 fun e member => ?_
  have bounds := h.elements e member
  have nonempty := (laid.laid e member).nonempty
  rw [decide_eq_true_eq]
  intro within
  have above : s.start ≤ e.span.start := within.1
  have below : e.span.stop ≤ s.stop := within.2
  omega

theorem Between.inside_eq_self (h : f.Between s.start s.stop) : f.inside s = f.elements :=
  List.filter_eq_self.2 fun e member => decide_eq_true (h.elements e member)

end Found

namespace Document

variable {strict : Bool} {p : Part} {c d : Cursor} {f g : Found} {e : Element}

/-- A stretch that starts at `c` or behind it is read as the element `e`, and what is found
there is what lies inside the element among all that is found. -/
def Resolves (strict : Bool) (c : Cursor) (f : Found) (e : Element) : Prop :=
  ∃ c' d' g, c.Upto c' ∧ Reads strict .element c' g d' ∧ e.span.start = c'.offset ∧
    e.span.stop = d'.offset ∧ f.inside e.span = g.elements

theorem Resolves.behind (h : Resolves strict d f e) (upto : c.Upto d) : Resolves strict c f e := by
  obtain ⟨c', d', g, upto', rest⟩ := h
  exact ⟨c', d', g, upto.trans upto', rest⟩

/-- Two stretches that are read one behind the other. -/
theorem resolves_append {q : Part} {b k : Cursor} (inner : Reads strict p c f d)
    (rest : Reads strict q b g k) (le : d.offset ≤ b.offset)
    (ihf : ∀ e ∈ f.elements, Resolves strict c f e)
    (ihg : ∀ e ∈ g.elements, Resolves strict b g e) (upto : d.Upto b) :
    ∀ e ∈ (f ++ g).elements, Resolves strict c (f ++ g) e := by
  intro e member
  rcases List.mem_append.1 member with member | member
  · obtain ⟨c', d', h, upto', reads, start, stop, same⟩ := ihf e member
    have bounds := inner.between.elements e member
    have none := rest.between.inside_eq_nil rest.forest (.inl (bounds.2.trans le))
    refine ⟨c', d', h, upto', reads, start, stop, ?_⟩
    rw [Found.inside_append, none, List.append_nil, same]
  · obtain ⟨c', d', h, upto', reads, start, stop, same⟩ := ihg e member
    have bounds := rest.between.elements e member
    have none := inner.between.inside_eq_nil inner.forest (.inr (le.trans bounds.1))
    refine ⟨c', d', h, inner.upto.trans (upto.trans upto'), reads, start, stop, ?_⟩
    rw [Found.inside_append, none, List.nil_append, same]

/-- An element around what is read inside it. -/
theorem resolves_cons {b : Cursor} {x : Element} (inner : f.Between b.offset d.offset)
    (whole : Reads strict .element c (({ elements := [x] } : Found) ++ f) d)
    (start : x.span.start = c.offset) (stop : x.span.stop = d.offset) (past : c.Past b)
    (ih : ∀ e ∈ f.elements, Resolves strict b f e) :
    ∀ e ∈ (({ elements := [x] } : Found) ++ f).elements,
      Resolves strict c (({ elements := [x] } : Found) ++ f) e := by
  intro e member
  rcases List.mem_cons.1 member with rfl | member
  · refine ⟨c, d, _, .refl c, whole, start, stop, Found.Between.inside_eq_self ?_⟩
    rw [start, stop]
    exact whole.between
  · obtain ⟨c', d', h, upto, reads, start', stop', same⟩ := ih e member
    have bounds := (inner.elements e member).1
    have lt := past.offset_lt
    have outside : ¬ x.span.Within e.span := fun within => by
      have above : e.span.start ≤ x.span.start := within.1
      omega
    refine ⟨c', d', h, past.upto.trans upto, reads, start', stop', ?_⟩
    rw [Found.inside_append, same]
    exact congrArg (· ++ h.elements) (List.filter_cons_of_neg (by simpa using outside))

/-- Every element that is found was read in the stretch that it spans. -/
theorem Reads.resolves (h : Reads strict p c f d) :
    ∀ e ∈ f.elements, Resolves strict c f e := by
  induction h with
  | codeEnd | codeClose | templateEnd | attributesNone | tagClosed | tagOpen | attributeName
  | valueQuoted | childrenClose => exact fun _ member => nomatch member
  | codeOpen skips lead _ ih | codeShut skips lead _ ih =>
    obtain ⟨x, t, hr, _⟩ := lead
    exact fun e member => (ih e member).behind (skips.upto.trans (past_of_cons hr).upto)
  | @codeToken _ _ _ _ c d k stop _ skips _ _ _ ih =>
    exact fun e member => (ih e member).behind (skips.upto.trans stop.2.upto)
  | codeTemplate skips lead inner rest ihf ihg =>
    obtain ⟨x, t, hr, _⟩ := lead
    have both := resolves_append inner rest (Nat.le_refl _) ihf ihg (.refl _)
    exact fun e member => (both e member).behind (skips.upto.trans (past_of_cons hr).upto)
  | codeElement skips _ inner rest ihf ihg | codeDeclaration skips _ inner rest ihf ihg
  | tagAttribute skips _ _ _ inner rest ihf ihg =>
    have both := resolves_append inner rest (Nat.le_refl _) ihf ihg (.refl _)
    exact fun e member => (both e member).behind skips.upto
  | childrenElement _ _ _ inner rest ihf ihg =>
    exact resolves_append inner rest (Nat.le_refl _) ihf ihg (.refl _)
  | @templateEscape c _ _ _ _ hr _ ih =>
    exact fun e member =>
      (ih e member).behind (upto_advance (c := c) (n := 2) (by simp [hr]))
  | @templateBlock c d _ _ _ _ hr block rest ihf ihg =>
    obtain ⟨u, hu⟩ := block.endsAt
    have both := resolves_append block rest (Nat.le_add_right d.offset 1) ihf ihg
      (past_of_cons hu).upto
    exact fun e member =>
      (both e member).behind (upto_advance (c := c) (n := 2) (by simp [hr]))
  | @childrenBlock _ _ d _ _ _ _ hr block rest ihf ihg =>
    obtain ⟨u, hu⟩ := block.endsAt
    have both := resolves_append block rest (Nat.le_add_right d.offset 1) ihf ihg
      (past_of_cons hu).upto
    exact fun e member => (both e member).behind (past_of_cons hr).upto
  | templatePoint hr _ _ _ _ ih | attributeSpread _ hr _ ih | valueContainer _ _ hr _ ih =>
    exact fun e member => (ih e member).behind (past_of_cons hr).upto
  | @childrenText _ c _ x t _ hr _ _ _ ih =>
    exact fun e member => (ih e member).behind (c.skipText hr).2.upto
  | valueElement _ _ _ ih => exact ih
  | declaration hk hq hs _ _ _ _ ih =>
    have upto := hk.upto.trans (hq.trans (upto_advance (stringLength?_bounds hs).2))
    exact fun e member => (ih e member).behind upto
  | attributesBlock brace hr _ ih =>
    obtain ⟨d, skips, _, skips'⟩ := brace
    have upto := skips.upto.trans ((upto_advance (nameLength_le d.rest)).trans
      (skips'.upto.trans (past_of_cons hr).upto))
    exact fun e member => (ih e member).behind upto
  | attributeValue _ eq _ skips hr skips' _ ih =>
    have upto := (upto_advance (eq ▸ attributeNameLength_le _)).trans
      (skips.upto.trans ((past_of_cons hr).upto.trans skips'.upto))
    exact fun e member => (ih e member).behind upto
  | fragment he notAtEnd skips hr children ih =>
    have first := past_advance Nat.one_pos (List.length_pos_iff.2 notAtEnd)
    have past := first.trans_upto (skips.upto.trans (past_of_cons hr).upto)
    exact resolves_cons children.between (.fragment he notAtEnd skips hr children) rfl rfl past ih
  | elementClosed he notAtEnd skips eq pos tag ih =>
    have first := past_advance Nat.one_pos (List.length_pos_iff.2 notAtEnd)
    have past := first.trans_upto (skips.upto.trans (upto_advance (eq ▸ tagNameLength_le _)))
    exact resolves_cons tag.between (.elementClosed he notAtEnd skips eq pos tag) rfl rfl past ih
  | elementOpen hk notAtEnd skips eq pos tag children ihf ihg =>
    have first := past_advance Nat.one_pos (List.length_pos_iff.2 notAtEnd)
    have past := first.trans_upto (skips.upto.trans (upto_advance (eq ▸ tagNameLength_le _)))
    have between := tag.between.append children.between tag.upto.offset_le children.upto.offset_le
    exact resolves_cons between (.elementOpen hk notAtEnd skips eq pos tag children) rfl rfl past
      (resolves_append tag children (Nat.le_refl _) ihf ihg (.refl _))

end Document

/-! ## Read alone -/

/-- What is a regular expression at the end of a text is one with more text behind it. -/
theorem Lexeme.regexLength?_append_ne_none {u : Text} (h : regexLength? u ≠ none) (v : Text) :
    regexLength? (u ++ v) ≠ none := by
  obtain ⟨n, isRegex⟩ := Option.ne_none_iff_exists'.1 h
  unfold regexLength? at isRegex
  split at isRegex
  · rename_i x t
    split at isRegex
    · cases isRegex
    · rename_i noComment
      obtain ⟨m, tail, _⟩ := Option.map_eq_some_iff.1 isRegex
      have tail' := regexTail?_eq (u := x :: t) (v := []) (w := v) (by rwa [List.append_nil])
        (regexTail?_le tail)
      simp only [List.cons_append, regexLength?, if_neg noComment]
      rw [← List.cons_append, tail']
      exact Option.some_ne_none _
  · cases isRegex

/-- A slash that opens no regular expression opens none where less text follows. -/
theorem Relocation.keepsStray {m : Relocation} (alone : m.behind = []) : m.KeepsStray := by
  intro prev c covers isStray
  by_contra isRegex
  have whole : (m.place c).rest ++ c.rest.drop (m.stop.offset - c.offset) = c.rest := by
    rw [Relocation.place, alone, List.append_nil, List.take_append_drop]
  exact regexLength?_append_ne_none isRegex _ (whole ▸ isStray.2.2)

namespace Document

variable {source : Text} {d : Document} {e : Element} {x : CodePoint}

theorem startsElement_of_isTagStart {t : Text} (h : x.is '>' = true ∨ x.isTagStart = true) :
    Lead.startsElement (x :: t) = true := by
  rcases h with closes | starts
  · simp [Lead.startsElement, closes]
  · obtain y | i := x
    · simp only [CodePoint.isTagStart, CodePoint.isIn, Bool.or_eq_true, beq_iff_eq] at starts
      simp only [Lead.startsElement, Bool.or_eq_true, CodePoint.is_iff, CodePoint.scalar_inj]
      rcases starts with (isAlpha | rfl) | rfl
      · exact .inl (.inl (.inr (CodePoint.isLetter_of_isAlpha isAlpha)))
      · exact .inl (.inr rfl)
      · exact .inr rfl
    · cases starts

/-- What the text of a span begins with that holds two code points. -/
theorem text_of_getElem? {s : Span} {y : CodePoint} (two : s.start + 2 ≤ s.stop)
    (first : source[s.start]? = some x) (second : source[s.start + 1]? = some y) :
    ∃ t, s.text source = x :: y :: t := by
  obtain ⟨n, size⟩ := Nat.exists_eq_add_of_le two
  obtain ⟨lt, rfl⟩ := List.getElem?_eq_some_iff.1 first
  obtain ⟨lt', rfl⟩ := List.getElem?_eq_some_iff.1 second
  have length : s.stop - s.start = n + 2 := by omega
  rw [Span.text, Text.slice, length, List.drop_eq_getElem_cons lt, List.drop_eq_getElem_cons lt']
  exact ⟨_, rfl⟩

/-- An element that is read from the start of a source up to its end is all that the source
is read as, if code may start with it. -/
theorem Reads.parse_element {text t : Text} {k : Cursor} {g : Found} (hr : text = .scalar '<' :: t)
    (starts : Lead.startsElement t = true) (h : Reads false .element (ofSource text) g k)
    (atEnd : k.rest = []) : parse text = .ok { source := text, elements := g.elements } := by
  have start : codeStart text = ofSource text := by
    rw [codeStart, hr]
    rfl
  have skips : (ofSource text).Skips (ofSource text) := skips_of_startsToken hr rfl
  have ends : k.Skips k := ⟨.refl k, by rw [skipTrivia]; split <;> simp_all⟩
  have reads : Reads false (.code false [] .start) (codeStart text) (g ++ {}) k := by
    rw [start]
    exact .codeElement skips (Lead.at_element hr rfl starts) h (.codeEnd ends atEnd)
  rw [reads.parse_eq, Found.append_nil, h.imports_eq_nil rfl]

/-- The text of an element that code may start with is read as a source of its own. What is
found there are the elements that lie inside the element, as they lie from its start. -/
theorem parse_element_text (read : parse source = .ok d) (member : e ∈ d.elements)
    (next : source[e.span.start + 1]? = some x) (starts : x.is '>' = true ∨ x.isTagStart = true) :
    ∃ own, parse (e.span.text source) = .ok own ∧ own.imports = [] ∧
      own.elements.map (·.shift e.span.start) = d.elements.filter (·.span.Within e.span) := by
  have forest := (laid_of_parse read).forest.laid
  obtain ⟨found, stop, reads, rfl⟩ := Reads.of_parse read
  have on := codeStart_on source
  have mark := (reads.marked on nofun e member).1
  obtain ⟨c, k, g, upto, inner, start, stop, same⟩ := reads.resolves e member
  have onC := on.upto upto
  have onK := onC.upto inner.upto
  let m := Relocation.cutout source e.span
  have stopM : m.stop = k := (congrArg (place source) stop).trans onK.symm
  have atC : c = place source e.span.start := start ▸ onC
  have covers : m.Covers c := ⟨Nat.le_of_eq start, stopM ▸ inner.upto⟩
  have placed : m.place c = ofSource (e.span.text source) := by
    rw [atC]
    refine (Relocation.place_cutout (Nat.le_refl _)).trans ?_
    rw [Nat.sub_self]
    rfl
  have own := inner.relocates (m := m) rfl (.inr (Relocation.keepsStray rfl)) covers
    (stopM ▸ .refl k) trivial
  have atEnd : (m.place k).rest = [] := by
    simp only [Relocation.place, stopM, Nat.sub_self, List.take_zero]
    rfl
  have laid := forest e member
  have two : e.span.start + 2 ≤ e.span.stop :=
    (Nat.succ_le_succ laid.start_lt).trans ((Nat.succ_le_succ e.region.le).trans laid.stop_lt)
  obtain ⟨t, hr⟩ := text_of_getElem? two mark next
  rw [placed] at own
  refine ⟨_, Reads.parse_element hr (startsElement_of_isTagStart starts) own atEnd, rfl, ?_⟩
  change (g.elements.map m.onElement).map (·.shift e.span.start) = found.inside e.span
  rw [same, List.map_map]
  refine (List.map_congr_left fun b memberB => ?_).trans (List.map_id _)
  rw [← same] at memberB
  obtain ⟨memberB, within⟩ := List.mem_filter.1 memberB
  exact Relocation.shift_onElement (m := m) rfl (forest b memberB) (of_decide_eq_true within).1

/-- An element with others in an attribute, in a template and among its children, between
two others. -/
def elementsSource : Text :=
  "a / <A/>;\n(<B c=\x7b\x60d$\x7b<e/>\x7d\x60\x7d f='g'> <h>/</h></B>) / <i/>;\n"

theorem parse_element_text_nested :
    ∃ d, parse elementsSource = .ok d ∧ d.elements.length = 5 ∧
      ∃ e ∈ d.elements, e.name = ("B" : Text) ∧
        ∃ own, parse (e.span.text elementsSource) = .ok own ∧
          own.imports = [] ∧ own.elements.length = 3 ∧
          own.elements.map (·.shift e.span.start) =
            d.elements.filter (·.span.Within e.span) := by
  have found : ((parse elementsSource).toOption.any fun d => decide (d.elements.length = 5 ∧
      ∃ e ∈ d.elements, e.name = ("B" : Text) ∧
        elementsSource[e.span.start + 1]? = some (.scalar 'B') ∧
        (d.elements.filter (·.span.Within e.span)).length = 3)) = true := by
    decide +kernel
  obtain ⟨d, read, length, e, member, name, next, three⟩ := exists_ok_of_decide found
  obtain ⟨own, readOwn, none, same⟩ := parse_element_text read member next (.inr (by decide))
  refine ⟨d, read, length, e, member, name, own, readOwn, none, ?_, same⟩
  rw [← three, ← same, List.length_map]

end Document

end StyleBinding
