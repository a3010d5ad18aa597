import StyleBinding.Proofs.Reading.Layout

/-!
# The elements of a source as a forest

Elements are listed in the order of their first code points, and of any two of
them the later one lies behind the earlier one, inside one of its attributes, or
among its children. So the list of elements is a forest in preorder, and the
regions of two elements never overlap by halves.
-/

namespace StyleBinding

open Document Cursor

variable {strict : Bool}

/-- Everything in a stretch of source lies between two offsets. -/
structure Found.Between (f : Found) (low high : Nat) : Prop where
  elements : ∀ e ∈ f.elements, low ≤ e.span.start ∧ e.span.stop ≤ high
  imports : ∀ i ∈ f.imports, low ≤ i.span.start ∧ i.span.stop ≤ high

namespace Found.Between

variable {f g : Found} {low low' middle high high' : Nat}

theorem nil : Found.Between {} low high := ⟨by simp, by simp⟩

theorem mono (h : f.Between low high) (le : low' ≤ low) (le' : high ≤ high') :
    f.Between low' high' := by
  constructor
  · intro e member
    have := h.elements e member
    omega
  · intro i member
    have := h.imports i member
    omega

theorem append (h : f.Between low middle) (k : g.Between middle high) (le : low ≤ middle)
    (le' : middle ≤ high) : (f ++ g).Between low high := by
  have h := h.mono (Nat.le_refl low) le'
  have k := k.mono le (Nat.le_refl high)
  constructor
  · intro e member
    rcases List.mem_append.1 member with member | member
    · exact h.elements e member
    · exact k.elements e member
  · intro i member
    rcases List.mem_append.1 member with member | member
    · exact h.imports i member
    · exact k.imports i member

/-- One more element in front that reaches over all. -/
theorem cons {e : Element} (h : f.Between low high) (start : e.span.start = low)
    (stop : e.span.stop = high) : (({ elements := [e] } : Found) ++ f).Between low high := by
  constructor
  · intro b member
    rcases List.mem_cons.1 member with rfl | member
    · omega
    · exact h.elements b member
  · exact h.imports

end Found.Between

/-- Everything found in a stretch lies inside it. -/
theorem Document.Reads.between {p : Part} {c d : Cursor} {f : Found} (h : Reads strict p c f d) :
    f.Between c.offset d.offset := by
  induction h with
  | codeEnd | codeClose | templateEnd | attributesNone | tagClosed | tagOpen | attributeName
  | valueQuoted | childrenClose => exact .nil
  | codeTemplate skips lead inner rest ihf ihg =>
    obtain ⟨x, t, hr, _⟩ := lead
    have first := (skips.upto.trans_past (past_of_cons hr)).upto.offset_le
    exact (ihf.mono first (Nat.le_refl _)).append ihg (Nat.le_trans first inner.upto.offset_le)
      rest.upto.offset_le
  | codeOpen skips lead _ ih | codeShut skips lead _ ih =>
    obtain ⟨x, t, hr, _⟩ := lead
    exact ih.mono (skips.upto.trans_past (past_of_cons hr)).upto.offset_le (Nat.le_refl _)
  | codeElement skips _ inner rest ihf ihg | codeDeclaration skips _ inner rest ihf ihg
  | tagAttribute skips _ _ _ inner rest ihf ihg =>
    have first := skips.upto.offset_le
    exact (ihf.mono first (Nat.le_refl _)).append ihg (Nat.le_trans first inner.upto.offset_le)
      rest.upto.offset_le
  | @codeToken _ _ _ _ c d k stop _ skips _ _ _ ih =>
    exact ih.mono (skips.upto.trans stop.2.upto).offset_le (Nat.le_refl _)
  | @templateEscape c _ _ _ _ hr _ ih =>
    exact ih.mono (Nat.le_add_right c.offset 2) (Nat.le_refl _)
  | @templateBlock c d e _ _ _ hr block rest ihf ihg =>
    have first := block.upto.offset_le
    simp only [advance] at first
    exact (ihf.mono (Nat.le_add_right c.offset 2) (Nat.le_add_right d.offset 1)).append ihg
      (by omega) rest.upto.offset_le
  | @templatePoint c _ _ _ _ _ _ _ _ _ ih =>
    exact ih.mono (Nat.le_add_right c.offset 1) (Nat.le_refl _)
  | @declaration c k q e n _ _ f hk hq hs he found inner _ ih =>
    have first := (hk.upto.trans hq).offset_le
    have second := inner.upto.offset_le
    have third := e.skipSemicolon.2.offset_le
    have behind : f.Between c.offset e.skipSemicolon.1.offset :=
      ih.mono (by simp only [advance]; omega) third
    constructor
    · exact behind.elements
    · intro i member
      rcases List.mem_cons.1 member with rfl | member
      · exact ⟨Nat.le_refl _, Nat.le_refl _⟩
      · exact behind.imports i member
  | attributesBlock brace hr block ih =>
    obtain ⟨d, skips, _, skips'⟩ := brace
    have first := (skips.upto.trans ((upto_advance (Lexeme.nameLength_le d.rest)).trans
      (skips'.upto.trans (past_of_cons hr).upto))).offset_le
    exact ih.mono first (Nat.le_add_right _ 1)
  | @fragment c d e _ _ he notAtEnd skips hr _ ih =>
    have first := skips.upto.offset_le
    exact (ih.mono (by simp only [advance] at first ⊢; omega) (Nat.le_refl _)).cons rfl rfl
  | @elementClosed c d e n _ _ _ he notAtEnd skips _ _ _ ih =>
    have first := skips.upto.offset_le
    exact (ih.mono (by simp only [advance] at first ⊢; omega) (Nat.le_refl _)).cons rfl rfl
  | @elementOpen c d e k n _ _ _ _ hk notAtEnd skips _ _ tag rest ihf ihg =>
    have first := skips.upto.offset_le
    have second := tag.upto.offset_le
    have both := ihf.append ihg second rest.upto.offset_le
    exact (both.mono (by simp only [advance] at first ⊢; omega) (Nat.le_refl _)).cons rfl rfl
  | @attributeSpread c d _ _ _ _ _ ih =>
    exact ih.mono (Nat.le_add_right c.offset 1) (Nat.le_add_right d.offset 1)
  | @attributeValue c q v e n _ _ _ he _ _ skips hx skips' _ ih =>
    have first := skips.upto.offset_le
    have second := skips'.upto.offset_le
    exact ih.mono (by simp only [advance] at first second; omega) (Nat.le_refl _)
  | @valueContainer c d _ _ _ _ _ _ ih =>
    exact ih.mono (Nat.le_add_right c.offset 1) (Nat.le_add_right d.offset 1)
  | valueElement _ _ _ ih => exact ih
  | @childrenBlock _ c d e _ _ _ hr block rest ihf ihg =>
    have first := block.upto.offset_le
    simp only [advance] at first
    exact (ihf.mono (Nat.le_add_right c.offset 1) (Nat.le_add_right d.offset 1)).append ihg
      (by omega) rest.upto.offset_le
  | childrenElement _ _ _ inner rest ihf ihg =>
    exact ihf.append ihg inner.upto.offset_le rest.upto.offset_le
  | @childrenText _ c _ x t _ hr _ _ _ ih =>
    exact ih.mono (c.skipText hr).2.upto.offset_le (Nat.le_refl _)

/-! ## Elements inside attributes and among children -/

namespace Document

/-- An element inside an attribute starts behind the start of that attribute. -/
theorem Reads.attribute_elements {a : Attribute} {c d : Cursor} {f : Found}
    (h : Reads strict (.attribute a) c f d) {e : Element} (member : e ∈ f.elements) :
    c.offset < e.span.start ∧ e.span.stop ≤ d.offset := by
  cases h with
  | attributeSpread _ _ block =>
    have := block.between.elements e member
    simp only [advance] at this ⊢
    omega
  | attributeName => cases member
  | attributeValue _ eq pos skips _ skips' value =>
    have first := skips.upto.offset_le
    have second := skips'.upto.offset_le
    have := value.between.elements e member
    simp only [advance] at first second
    omega

/-- Every element found in a tag lies inside one of its attributes, behind the
start of that attribute. -/
theorem Reads.tag_elements {before after : Span} {attributes : List Attribute}
    {selfClosing : Bool} {c d : Cursor} {f : Found}
    (h : Reads strict (.tag before after attributes selfClosing) c f d) {e : Element}
    (member : e ∈ f.elements) :
    ∃ a ∈ attributes, ∃ s, a.Laid s ∧ s.start < e.span.start ∧ e.span.stop ≤ s.stop := by
  cases h with
  | tagClosed | tagOpen => cases member
  | @tagAttribute _ _ a attributes _ c d k l x t f g skips hr noSlash noClose head rest =>
    rcases List.mem_append.1 member with member | member
    · obtain ⟨s, laid, atStart, atStop⟩ := head.attribute_laid
      have := head.attribute_elements member
      exact ⟨a, List.mem_cons_self, s, laid, by omega, by omega⟩
    · obtain ⟨b, memberB, s, laid, inside⟩ := rest.tag_elements member
      exact ⟨b, List.mem_cons_of_mem _ memberB, s, laid, inside⟩

/-- Children end in front of the closing tag. -/
theorem Reads.children_elements {name : Text} {c d : Cursor} {f : Found}
    (h : Reads strict (.children name) c f d) :
    c.offset < d.offset ∧ ∀ e ∈ f.elements, e.span.stop < d.offset := by
  generalize part : Part.children name = p at h
  induction h with
  | childrenBlock _ block _ _ ih =>
    obtain ⟨past, strict⟩ := ih part
    have first := block.upto.offset_le
    refine ⟨by simp only [advance] at first past; omega, fun e member => ?_⟩
    rcases List.mem_append.1 member with member | member
    · have := (block.between.elements e member).2
      simp only [advance] at past
      omega
    · exact strict e member
  | childrenClose _ skips _ _ _ =>
    have first := skips.upto.offset_le
    exact ⟨by simp only [advance] at first ⊢; omega, by simp⟩
  | childrenElement _ _ _ element _ _ ih =>
    obtain ⟨past, strict⟩ := ih part
    have first := element.element_offset_lt
    refine ⟨by omega, fun e member => ?_⟩
    rcases List.mem_append.1 member with member | member
    · have := (element.between.elements e member).2
      omega
    · exact strict e member
  | childrenText _ _ _ _ ih =>
    obtain ⟨past, strict⟩ := ih part
    exact ⟨by simp only [advance] at past; omega, strict⟩
  | _ => cases part

end Document

/-! ## Forests -/

/-- How an element lies: its name in front of its region, the attributes in the
region, and the rest of its tag behind. -/
structure Element.Laid (e : Element) : Prop where
  start_lt : e.span.start < e.region.start
  stop_lt : e.region.stop < e.span.stop
  laidOut : Attribute.LaidOut e.region.start e.parsed e.region.stop
  named : ∀ {a : Attribute} {s : Span}, a ∈ e.parsed → a.name ≠ none → a.Laid s →
    e.region.start < s.start
  unchanged : e.attributes = e.parsed

/-- How an element lies that comes later in a document than `e`: behind it, inside
one of its attributes, or among its children. -/
inductive Element.Precedes (e f : Element) : Prop
  | behind : e.span.stop ≤ f.span.start → Element.Precedes e f
  | inAttribute {a : Attribute} {s : Span} :
    a ∈ e.parsed → a.Laid s → s.start < f.span.start → f.span.stop ≤ s.stop →
    Element.Precedes e f
  | child : e.region.stop < f.span.start → f.span.stop < e.span.stop → Element.Precedes e f

/-- Elements in the order of their first code points, each lying properly. -/
structure Element.Forest (elements : List Element) : Prop where
  laid : ∀ e ∈ elements, e.Laid
  precedes : elements.Pairwise Element.Precedes

namespace Element.Forest

theorem nil : Element.Forest [] := ⟨by simp, .nil⟩

theorem append {f g : Found} {low middle high : Nat} (hf : Element.Forest f.elements)
    (hg : Element.Forest g.elements) (betweenF : f.Between low middle)
    (betweenG : g.Between middle high) : Element.Forest (f ++ g).elements := by
  refine ⟨fun e member => ?_, List.pairwise_append.2 ⟨hf.precedes, hg.precedes, ?_⟩⟩
  · exact (List.mem_append.1 member).elim (hf.laid e) (hg.laid e)
  · intro e memberE b memberB
    have := betweenF.elements e memberE
    have := betweenG.elements b memberB
    exact .behind (by omega)

end Element.Forest

/-- An element lies properly whose tag is read behind its name. -/
theorem Document.Reads.element_laid {name : Text} {span region : Span} {selfClosing : Bool}
    {attributes : List Attribute} {n : Nat} {d e : Cursor} {f : Found}
    (tag : Reads strict (.tag (.point (d.offset + n)) region attributes selfClosing)
      (d.advance n) f e)
    (eq : n = Lexeme.tagNameLength d.rest) (pos : 0 < n) (start : span.start < d.offset)
    (stop : e.offset ≤ span.stop) :
    Element.Laid { name, span, region, selfClosing, parsed := attributes } := by
  obtain ⟨same, laidOut, before⟩ := tag.tag_laid rfl
  simp only [Span.point] at same laidOut
  refine ⟨?_, ?_, ?_, ?_, rfl⟩
  · dsimp only
    omega
  · exact Nat.lt_of_lt_of_le before stop
  · rw [same]
    exact laidOut
  · intro a s member named laid
    have := tag.tag_named rfl (fun x hx => Lexeme.tagNameLength_stops (eq ▸ pos) (eq ▸ hx))
      member named laid
    rw [same]
    exact this

/-- The elements of what is read form a forest. -/
theorem Document.Reads.forest {p : Part} {c d : Cursor} {f : Found} (h : Reads strict p c f d) :
    Element.Forest f.elements := by
  induction h with
  | codeEnd | codeClose | templateEnd | attributesNone | tagClosed | tagOpen | attributeName
  | valueQuoted | childrenClose => exact .nil
  | codeOpen _ _ _ ih | codeShut _ _ _ ih | codeToken _ _ _ _ ih | templateEscape _ _ ih
  | templatePoint _ _ _ _ _ ih | declaration _ _ _ _ _ _ _ ih | attributesBlock _ _ _ ih
  | attributeSpread _ _ _ ih | attributeValue _ _ _ _ _ _ _ ih | valueContainer _ _ _ _ ih
  | valueElement _ _ _ ih | childrenText _ _ _ _ ih => exact ih
  | codeElement _ _ inner rest ihf ihg | codeDeclaration _ _ inner rest ihf ihg
  | tagAttribute _ _ _ _ inner rest ihf ihg | childrenElement _ _ _ inner rest ihf ihg =>
    exact ihf.append ihg inner.between rest.between
  | codeTemplate _ _ inner rest ihf ihg =>
    exact ihf.append ihg inner.between rest.between
  | templateBlock _ inner rest ihf ihg | childrenBlock _ inner rest ihf ihg =>
    exact ihf.append ihg inner.between (rest.between.mono (Nat.le_add_right _ 1) (Nat.le_refl _))
  | fragment he _ skips _ inner ih =>
    have first := skips.upto.offset_le
    have past := inner.children_elements
    refine ⟨fun b member => ?_, List.pairwise_cons.2 ⟨fun b member => ?_, ih.precedes⟩⟩
    · rcases List.mem_cons.1 member with rfl | member
      · exact ⟨first, Nat.lt_of_succ_lt past.1, .nil, by simp, rfl⟩
      · exact ih.laid b member
    · have := inner.between.elements b member
      exact .child this.1 (past.2 b member)
  | elementClosed he _ skips eq pos tag ih =>
    have first := skips.upto.offset_le
    refine ⟨fun b member => ?_, List.pairwise_cons.2 ⟨fun b member => ?_, ih.precedes⟩⟩
    · rcases List.mem_cons.1 member with rfl | member
      · exact tag.element_laid eq pos first (Nat.le_refl _)
      · exact ih.laid b member
    · obtain ⟨a, memberA, s, laid, above, below⟩ := tag.tag_elements member
      exact .inAttribute memberA laid above below
  | @elementOpen c d e k n region attributes f g hk _ skips eq pos tag inner ihTag ih =>
    have first := skips.upto.offset_le
    have past := inner.children_elements
    have both := ihTag.append ih tag.between inner.between
    refine ⟨fun b member => ?_, List.pairwise_cons.2 ⟨fun b member => ?_, both.precedes⟩⟩
    · rcases List.mem_cons.1 member with rfl | member
      · exact tag.element_laid eq pos first inner.upto.offset_le
      · exact both.laid b member
    · replace member : b ∈ f.elements ++ g.elements := member
      rcases List.mem_append.1 member with member | member
      · obtain ⟨a, memberA, s, laid, above, below⟩ := tag.tag_elements member
        exact .inAttribute memberA laid above below
      · have := inner.between.elements b member
        exact .child (Nat.lt_of_lt_of_le (tag.tag_laid rfl).2.2 this.1) (past.2 b member)

end StyleBinding
