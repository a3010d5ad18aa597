import StyleBinding.Proofs.Reading.Declarations

/-!
# The places of elements, attributes and declarations

What a document promises a printer about offsets. The spans of elements are those
of a forest in preorder, each between a less-than and a greater-than sign. The
attributes of an element divide the elements that start in its region among
them. Declarations lie one behind another and in no element.

Most of it is read off `Document.Laid`. What is new here is the induction that
finds the marks at both ends of an element: the reader of an element is only
called at a less-than sign, and tags and children end behind a greater-than sign.
-/

namespace StyleBinding

open Document Cursor

variable {strict : Bool}

/-! ## The marks at the ends of an element -/

theorem Text.getElem?_of_offsetOf? {x : Char} {t : Text} {n : Nat}
    (h : Text.offsetOf? [.scalar x] t = some n) : t[n]? = some (.scalar x) := by
  induction t generalizing n with
  | nil => cases h
  | cons y t ih =>
    rw [Text.offsetOf?] at h
    split at h
    · rename_i isHead
      cases h
      simp only [List.isPrefixOf, Bool.and_true, beq_iff_eq] at isHead
      rw [List.getElem?_cons_zero, isHead]
    · obtain ⟨m, hm, rfl⟩ := Option.map_eq_some_iff.1 h
      rw [List.getElem?_cons_succ]
      exact ih hm

namespace Document

/-- The parts that end with a tag. -/
def Part.endsTagged : Part → Bool
  | .element | .tag .. | .children _ => true
  | _ => false

/-- Tags, and what they end, end behind a greater-than sign. -/
theorem Reads.stop_mark {source : Text} {p : Part} {c d : Cursor} {f : Found}
    (h : Reads strict p c f d) (on : c.On source) (tagged : p.endsTagged = true) :
    0 < d.offset ∧ source[d.offset - 1]? = some (.scalar '>') := by
  induction h with
  | fragment _ _ skips _ _ ih =>
    exact ih (((on.advance 1).upto skips.upto).advance 1) rfl
  | elementClosed _ _ skips _ _ _ ih =>
    exact ih (((on.advance 1).upto skips.upto).advance _) rfl
  | elementOpen _ _ skips _ _ tag _ _ ih =>
    exact ih ((((on.advance 1).upto skips.upto).advance _).upto tag.upto) rfl
  | @tagClosed _ c d skips closes =>
    refine ⟨Nat.succ_pos _, ?_⟩
    obtain ⟨t, ht⟩ := List.isPrefixOf_iff_prefix.1 closes
    have mark := (on.upto skips.upto).getElem? 1
    rw [← ht] at mark
    exact mark
  | @tagOpen _ c d t skips hr =>
    refine ⟨Nat.succ_pos _, ?_⟩
    have mark := (on.upto skips.upto).getElem? 0
    rw [hr] at mark
    exact mark
  | tagAttribute skips _ _ _ head _ _ ih =>
    exact ih ((on.upto skips.upto).upto head.upto) rfl
  | childrenBlock _ block _ _ ih =>
    exact ih (((on.advance 1).upto block.upto).advance 1) rfl
  | @childrenClose _ c d _ n _ skips _ stop _ =>
    refine ⟨Nat.succ_pos _, ?_⟩
    have mark := ((on.advance 1).upto skips.upto).getElem? n
    rw [Text.getElem?_of_offsetOf? stop] at mark
    exact mark
  | childrenElement _ _ _ element _ _ ih => exact ih (on.upto element.upto) rfl
  | @childrenText _ c _ x t _ hr _ _ _ ih => exact ih (on.upto (c.skipText hr).2.upto) rfl
  | _ => cases tagged

/-- A less-than sign stands at the start of a span of a source, and a greater-than
sign at its end. -/
def Marked (source : Text) (s : Span) : Prop :=
  source[s.start]? = some (.scalar '<') ∧ source[s.stop - 1]? = some (.scalar '>')

theorem marked_cons {source : Text} {e : Element} {f : Found} {c : Cursor}
    (on : c.On source) (mark : c.rest.head? = some (.scalar '<')) (start : e.span.start = c.offset)
    (stop : source[e.span.stop - 1]? = some (.scalar '>'))
    (rest : ∀ b ∈ f.elements, Marked source b.span) :
    ∀ b ∈ (({ elements := [e] } : Found) ++ f).elements, Marked source b.span := by
  intro b member
  rcases List.mem_cons.1 member with rfl | member
  · refine ⟨?_, stop⟩
    rw [start, ← mark, List.head?_eq_getElem?]
    exact on.getElem? 0
  · exact rest b member

theorem marked_append {source : Text} {f g : Found}
    (hf : ∀ b ∈ f.elements, Marked source b.span) (hg : ∀ b ∈ g.elements, Marked source b.span) :
    ∀ b ∈ (f ++ g).elements, Marked source b.span :=
  fun b member => (List.mem_append.1 member).elim (hf b) (hg b)

/-- Every element found is marked, where the reader of an element starts at a
less-than sign. -/
theorem Reads.marked {source : Text} {p : Part} {c d : Cursor} {f : Found}
    (h : Reads strict p c f d) (on : c.On source)
    (start : p = .element → c.rest.head? = some (.scalar '<')) :
    ∀ e ∈ f.elements, Marked source e.span := by
  induction h with
  | codeEnd | codeClose | templateEnd | attributesNone | tagClosed | tagOpen | attributeName
  | valueQuoted | childrenClose => simp
  | codeTemplate skips _ inner _ ihf ihg =>
    have on := (on.upto skips.upto).advance 1
    exact marked_append (ihf on nofun) (ihg (on.upto inner.upto) nofun)
  | codeOpen skips _ _ ih | codeShut skips _ _ ih =>
    exact ih ((on.upto skips.upto).advance 1) nofun
  | codeElement skips lead inner _ ihf ihg =>
    have on := on.upto skips.upto
    refine marked_append (ihf on fun _ => ?_) (ihg (on.upto inner.upto) nofun)
    cases lead.begins with
    | element hr => rw [hr, List.head?_cons]
  | codeDeclaration skips _ inner _ ihf ihg =>
    have on := on.upto skips.upto
    exact marked_append (ihf on nofun) (ihg (on.upto inner.upto) nofun)
  | @codeToken _ _ _ _ _ _ _ stop _ skips _ _ _ ih =>
    exact ih ((on.upto skips.upto).upto stop.2.upto) nofun
  | templateEscape _ _ ih => exact ih (on.advance 2) nofun
  | templateBlock _ block _ ihf ihg =>
    have on := on.advance 2
    exact marked_append (ihf on nofun) (ihg ((on.upto block.upto).advance 1) nofun)
  | templatePoint _ _ _ _ _ ih => exact ih (on.advance 1) nofun
  | declaration hk hq _ _ _ _ _ ih =>
    exact ih (((on.upto hk.upto).upto hq).advance _) nofun
  | attributesBlock brace _ _ ih =>
    obtain ⟨d, skips, _, skips'⟩ := brace
    exact ih ((((on.upto skips.upto).advance _).upto skips'.upto).advance 1) nofun
  | fragment he _ skips _ inner ih =>
    have on' := ((on.advance 1).upto skips.upto).advance 1
    exact marked_cons on (start rfl) rfl (inner.stop_mark on' rfl).2 (ih on' nofun)
  | @elementClosed _ _ _ n _ _ _ _ _ skips _ _ tag ih =>
    have on' := ((on.advance 1).upto skips.upto).advance n
    exact marked_cons on (start rfl) rfl (tag.stop_mark on' rfl).2 (ih on' nofun)
  | @elementOpen _ _ _ _ n _ _ _ _ _ _ skips _ _ tag inner ihf ihg =>
    have on' := ((on.advance 1).upto skips.upto).advance n
    have on'' := on'.upto tag.upto
    exact marked_cons on (start rfl) rfl (inner.stop_mark on'' rfl).2
      (marked_append (ihf on' nofun) (ihg on'' nofun))
  | tagAttribute skips _ _ _ head _ ihf ihg =>
    have on := on.upto skips.upto
    exact marked_append (ihf on nofun) (ihg (on.upto head.upto) nofun)
  | attributeSpread _ _ _ ih | valueContainer _ _ _ _ ih => exact ih (on.advance 1) nofun
  | attributeValue _ _ _ skips _ skips' _ ih =>
    exact ih ((((on.advance _).upto skips.upto).advance 1).upto skips'.upto) nofun
  | valueElement _ hr _ ih => exact ih on fun _ => by rw [hr, List.head?_cons]
  | childrenBlock _ block _ ihf ihg =>
    have on := on.advance 1
    exact marked_append (ihf on nofun) (ihg ((on.upto block.upto).advance 1) nofun)
  | childrenElement hr _ _ element _ ihf ihg =>
    exact marked_append (ihf on fun _ => by rw [hr, List.head?_cons])
      (ihg (on.upto element.upto) nofun)
  | @childrenText _ c _ x t _ hr _ _ _ ih => exact ih (on.upto (c.skipText hr).2.upto) nofun

end Document

/-! ## The spans of attributes -/

/-- The span that an attribute was read from. -/
def Attribute.span? (a : Attribute) : Option Span :=
  match a.origin with
  | .written span _ _ => some span
  | _ => none

/-- The spans that the attributes of an element were read from. -/
def Element.attributeSpans (e : Element) : List Span := e.parsed.filterMap (·.span?)

theorem Attribute.Laid.span?_eq {a : Attribute} {s : Span} (h : a.Laid s) : a.span? = some s := by
  cases h <;> rfl

/-- Attributes that lie one after another have spans that do. -/
theorem Attribute.LaidOut.spans {start stop : Nat} {attributes : List Attribute}
    (h : Attribute.LaidOut start attributes stop) :
    (attributes.filterMap (·.span?)).length = attributes.length ∧
      (attributes.filterMap (·.span?)).Pairwise (fun s t => s.stop ≤ t.start) ∧
      ∀ s ∈ attributes.filterMap (·.span?), start ≤ s.start ∧ s.start < s.stop ∧ s.stop ≤ stop := by
  induction h with
  | nil => simp
  | @cons start stop a s rest laid le tail ih =>
    obtain ⟨length, ordered, bounds⟩ := ih
    have := laid.start_lt
    have := tail.le
    rw [List.filterMap_cons_some laid.span?_eq]
    refine ⟨by rw [List.length_cons, length, List.length_cons], ?_, fun t member => ?_⟩
    · exact List.pairwise_cons.2 ⟨fun t member => (bounds t member).1, ordered⟩
    · rcases List.mem_cons.1 member with rfl | member
      · omega
      · have := bounds t member
        omega

theorem Element.mem_attributeSpans {e : Element} {a : Attribute} {s : Span} (member : a ∈ e.parsed)
    (laid : a.Laid s) : s ∈ e.attributeSpans :=
  List.mem_filterMap.2 ⟨a, member, laid.span?_eq⟩

/-! ## Forests -/

theorem Element.Laid.nonempty {e : Element} (h : e.Laid) : e.span.start < e.span.stop := by
  have := h.start_lt
  have := h.stop_lt
  have := e.region.le
  omega

/-- What comes later in a forest lies behind, or inside and at neither end. -/
theorem Element.Precedes.nested {e f : Element} (h : e.Precedes f) (he : e.Laid) :
    e.span.stop ≤ f.span.start ∨ (e.span.start < f.span.start ∧ f.span.stop < e.span.stop) := by
  have first := he.start_lt
  have last := he.stop_lt
  have region := e.region.le
  cases h with
  | behind le => exact .inl le
  | inAttribute member laid above below =>
    obtain ⟨s, laidS, start, stop⟩ := he.laidOut.bounds member
    obtain rfl := laid.span_unique laidS
    exact .inr (by omega)
  | child above below => exact .inr (by omega)

/-- What comes later and starts in the region of an element lies in one of its
attributes. -/
theorem Element.Precedes.attribute_unique {e f : Element} (h : e.Precedes f) (he : e.Laid)
    (hf : f.Laid) (inRegion : f.span.start < e.region.stop) :
    ∃! s, s ∈ e.attributeSpans ∧ f.span.Within s := by
  have last := he.stop_lt
  have nonempty := hf.nonempty
  cases h with
  | behind | child => omega
  | @inAttribute a s member laid above below =>
    refine ⟨s, ⟨mem_attributeSpans member laid, Nat.le_of_lt above, below⟩, ?_⟩
    rintro t ⟨memberT, start, stop⟩
    obtain ⟨b, memberB, isSpan⟩ := List.mem_filterMap.1 memberT
    obtain ⟨u, laidU, _⟩ := he.laidOut.bounds memberB
    obtain rfl := Option.some.inj (isSpan.symm.trans laidU.span?_eq)
    rcases he.laidOut.apart memberB member laidU laid with same | le | le
    · exact same
    · omega
    · omega

namespace Element.Forest

variable {elements : List Element}

theorem nested (h : Element.Forest elements) : elements.Pairwise fun e f =>
    e.span.stop ≤ f.span.start ∨ (e.span.start < f.span.start ∧ f.span.stop < e.span.stop) :=
  h.precedes.imp_of_mem fun {e _} member _ later => later.nested (h.laid e member)

theorem ordered (h : Element.Forest elements) :
    elements.Pairwise fun e f => e.span.start < f.span.start := by
  refine h.nested.imp_of_mem fun {e f} member _ either => ?_
  have := (h.laid e member).nonempty
  omega

/-- The order of a forest is that of the starts. -/
theorem precedes_of_start_lt (h : Element.Forest elements) {e f : Element} (memberE : e ∈ elements)
    (memberF : f ∈ elements) (lt : e.span.start < f.span.start) : e.Precedes f := by
  have pairs : ∀ e ∈ elements, ∀ f ∈ elements, e.span.start < f.span.start → e.Precedes f := by
    refine List.Pairwise.forall_of_forall_of_flip ?_ ?_ ?_
    · exact fun e _ same => absurd same (Nat.lt_irrefl _)
    · refine h.precedes.imp ?_
      exact fun later _ => later
    · refine h.ordered.imp ?_
      exact fun lt reverse => absurd reverse (Nat.lt_asymm lt)
  exact pairs e memberE f memberF lt

end Element.Forest

/-! ## Declarations -/

theorem ImportDeclaration.Laid.nonempty {source : Text} {i : ImportDeclaration}
    (h : i.Laid source) : i.span.start < i.path.stop := by
  have := h.gap_start
  have := h.gap_stop
  have := h.path_lt
  have := i.gap.le
  omega

/-- An element lies in front of a declaration, behind it, or in its attributes. -/
theorem Element.Clear.outside {source : Text} {i : ImportDeclaration} {e : Element}
    (h : e.Clear source i) (hi : i.Laid source) :
    e.span.stop ≤ i.span.start ∨ i.span.stop ≤ e.span.start ∨
      (i.span.start < e.span.start ∧ e.span.stop ≤ i.span.stop) := by
  cases h with
  | before le => exact .inl le
  | inside above below =>
    have := hi.nonempty
    exact .inr (.inr ⟨by omega, below⟩)
  | after skips le =>
    have := skips.upto.offset_le
    simp only [Cursor.place] at this
    exact .inr (.inl (by omega))

/-! ## Documents -/

/-- How the spans of a document lie. -/
structure Document.Placed (d : Document) : Prop where
  element_lt : ∀ e ∈ d.elements, e.span.start < e.span.stop
  element_le : ∀ e ∈ d.elements, e.span.stop ≤ d.source.length
  element_marked : ∀ e ∈ d.elements, Marked d.source e.span
  elements_ordered : d.elements.Pairwise fun e f => e.span.start < f.span.start
  /-- Of two elements, the later one lies behind the earlier one, or inside it and at
  neither end. -/
  elements_nested : d.elements.Pairwise fun e f =>
    e.span.stop ≤ f.span.start ∨ (e.span.start < f.span.start ∧ f.span.stop < e.span.stop)
  /-- Every attribute has a span. -/
  attributes_spanned : ∀ e ∈ d.elements, e.attributeSpans.length = e.parsed.length
  attributes_ordered : ∀ e ∈ d.elements, e.attributeSpans.Pairwise fun s t => s.stop ≤ t.start
  attributes_within : ∀ e ∈ d.elements, ∀ s ∈ e.attributeSpans,
    s.start < s.stop ∧ s.Within e.region
  /-- An element that starts in the region of another lies in one attribute of it. -/
  attribute_unique : ∀ e ∈ d.elements, ∀ f ∈ d.elements, e.region.start ≤ f.span.start →
    f.span.start < e.region.stop → ∃! s, s ∈ e.attributeSpans ∧ f.span.Within s
  import_lt : ∀ i ∈ d.imports, i.span.start < i.span.stop
  imports_ordered : d.imports.Pairwise fun i j => i.span.stop ≤ j.span.start
  /-- No declaration lies in an element, or reaches into one. -/
  imports_outside : ∀ i ∈ d.imports, ∀ e ∈ d.elements,
    e.span.stop ≤ i.span.start ∨ i.span.stop ≤ e.span.start ∨
      (i.span.start < e.span.start ∧ e.span.stop ≤ i.span.stop)

/-- The spans of a document that is read lie as they should. -/
theorem Document.parse_placed {source : Text} {d : Document} (h : parse source = .ok d) :
    d.source = source ∧ d.Placed := by
  have laid := laid_of_parse h
  have laidElement := laid.forest.laid
  have laidImport := laid.declared.laid
  obtain ⟨found, stop, reads, rfl⟩ := Reads.of_parse h
  refine ⟨rfl, ?_⟩
  constructor
  case element_lt => exact fun e member => (laidElement e member).nonempty
  case element_le => exact fun e member => (laid.between.elements e member).2
  case element_marked => exact reads.marked (codeStart_on source) nofun
  case elements_ordered => exact laid.forest.ordered
  case elements_nested => exact laid.forest.nested
  case attributes_spanned => exact fun e member => (laidElement e member).laidOut.spans.1
  case attributes_ordered => exact fun e member => (laidElement e member).laidOut.spans.2.1
  case attributes_within =>
    intro e member s memberS
    obtain ⟨above, lt, below⟩ := (laidElement e member).laidOut.spans.2.2 s memberS
    exact ⟨lt, above, below⟩
  case attribute_unique =>
    intro e memberE f memberF above below
    have lt := Nat.lt_of_lt_of_le (laidElement e memberE).start_lt above
    exact (laid.forest.precedes_of_start_lt memberE memberF lt).attribute_unique
      (laidElement e memberE) (laidElement f memberF) below
  case import_lt =>
    exact fun i member =>
      Nat.lt_of_lt_of_le (laidImport i member).nonempty (laidImport i member).path_le
  case imports_ordered => exact laid.declared.ordered
  case imports_outside =>
    exact fun i memberI e memberE =>
      (laid.declared.clear i memberI e memberE).outside (laidImport i memberI)

/-- Elements in an attribute, in import attributes and among children. -/
def Document.placedSource : Text :=
  "import a from './a' with \x7bb: <i/>\x7d;\nimport './c';\n" ++
    "<A b=\x7b[<i c='d'/>, <></>]\x7d \x7b...e\x7d>f <b/></A>;\n"

theorem Document.parse_placed_nested :
    ∃ d, parse placedSource = .ok d ∧ d.imports.length = 2 ∧ d.elements.length = 5 ∧
      d.source = placedSource ∧ d.Placed := by
  have counts : ((parse placedSource).toOption.any fun d =>
      d.imports.length = 2 ∧ d.elements.length = 5) = true := by decide +kernel
  obtain ⟨d, read, counts⟩ := (Option.any_eq_true _ _).1 counts
  obtain ⟨imports, elements⟩ := of_decide_eq_true counts
  have read := parse_of_toOption read
  exact ⟨d, read, imports, elements, parse_placed read⟩

end StyleBinding
