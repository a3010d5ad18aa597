import StyleBinding.Proofs.Reading.Declarations
import StyleBinding.Proofs.Source.Gaps

/-!
# The values of attributes

Every value that an attribute of a document has was read from a place of the source.
So what the rules say of a value holds of all of them: a quoted one stands between two
quotes of one kind, and the code in braces is a block.
-/

namespace StyleBinding

open Cursor

variable {source : Text}

namespace Document

/-- A value is read from a place of a source. -/
def IsValue (source : Text) (v : AttributeValue) : Prop :=
  ∃ c f d, c.On source ∧ Reads false (.value v) c f d

/-- The value of an attribute, if it has one, is read from a place of a source. -/
def HasValue (source : Text) (a : Attribute) : Prop := ∀ v, a.value = some v → IsValue source v

/-- The values of all attributes that a part names are read from places of a source. -/
def Part.HasValues (source : Text) : Part → Prop
  | .tag _ _ attributes _ => ∀ a ∈ attributes, HasValue source a
  | .attribute a => HasValue source a
  | _ => True

theorem hasValue_cons {e : Element} {f : Found} (head : ∀ a ∈ e.parsed, HasValue source a)
    (rest : ∀ b ∈ f.elements, ∀ a ∈ b.parsed, HasValue source a) :
    ∀ b ∈ (({ elements := [e] } : Found) ++ f).elements, ∀ a ∈ b.parsed, HasValue source a := by
  intro b member
  rcases List.mem_cons.1 member with rfl | member
  · exact head
  · exact rest b member

theorem hasValue_append {f g : Found}
    (hf : ∀ b ∈ f.elements, ∀ a ∈ b.parsed, HasValue source a)
    (hg : ∀ b ∈ g.elements, ∀ a ∈ b.parsed, HasValue source a) :
    ∀ b ∈ (f ++ g).elements, ∀ a ∈ b.parsed, HasValue source a :=
  fun b member => (List.mem_append.1 member).elim (hf b) (hg b)

/-- The values of all attributes that are found or named have been read. -/
theorem Reads.hasValues {p : Part} {c d : Cursor} {f : Found} (h : Reads false p c f d)
    (on : c.On source) :
    (∀ e ∈ f.elements, ∀ a ∈ e.parsed, HasValue source a) ∧ p.HasValues source := by
  induction h with
  | codeEnd | codeClose | templateEnd | attributesNone | childrenClose | tagClosed | tagOpen
  | attributeName | valueQuoted => simp [Part.HasValues, HasValue, Attribute.value]
  | codeTemplate skips _ inner _ ihf ihg =>
    have on := (on.upto skips.upto).advance 1
    exact ⟨hasValue_append (ihf on).1 (ihg (on.upto inner.upto)).1, trivial⟩
  | codeOpen skips _ _ ih | codeShut skips _ _ ih =>
    exact ⟨(ih ((on.upto skips.upto).advance 1)).1, trivial⟩
  | codeElement skips _ inner _ ihf ihg | codeDeclaration skips _ inner _ ihf ihg =>
    have on := on.upto skips.upto
    exact ⟨hasValue_append (ihf on).1 (ihg (on.upto inner.upto)).1, trivial⟩
  | @codeToken _ _ _ _ _ _ _ stop _ skips _ _ _ ih =>
    exact ⟨(ih ((on.upto skips.upto).upto stop.2.upto)).1, trivial⟩
  | templateEscape _ _ ih => exact ⟨(ih (on.advance 2)).1, trivial⟩
  | templateBlock _ block _ ihf ihg =>
    have on := on.advance 2
    exact ⟨hasValue_append (ihf on).1 (ihg ((on.upto block.upto).advance 1)).1, trivial⟩
  | templatePoint _ _ _ _ _ ih => exact ⟨(ih (on.advance 1)).1, trivial⟩
  | declaration hk hq _ _ _ _ _ ih =>
    exact ⟨(ih (((on.upto hk.upto).upto hq).advance _)).1, trivial⟩
  | attributesBlock brace _ _ ih =>
    obtain ⟨d, skips, _, skips'⟩ := brace
    exact ⟨(ih ((((on.upto skips.upto).advance _).upto skips'.upto).advance 1)).1, trivial⟩
  | fragment _ _ skips _ _ ih =>
    have inside := ih (((on.advance 1).upto skips.upto).advance 1)
    exact ⟨hasValue_cons (by simp) inside.1, trivial⟩
  | @elementClosed _ _ _ n _ _ _ _ _ skips _ _ _ ih =>
    have tag := ih (((on.advance 1).upto skips.upto).advance n)
    exact ⟨hasValue_cons tag.2 tag.1, trivial⟩
  | @elementOpen _ _ _ _ n _ _ _ _ _ _ skips _ _ inner _ ihf ihg =>
    have on := ((on.advance 1).upto skips.upto).advance n
    have tag := ihf on
    have children := ihg (on.upto inner.upto)
    exact ⟨hasValue_cons tag.2 (hasValue_append tag.1 children.1), trivial⟩
  | tagAttribute skips _ _ _ inner _ ihf ihg =>
    have on := on.upto skips.upto
    have head := ihf on
    have rest := ihg (on.upto inner.upto)
    exact ⟨hasValue_append head.1 rest.1, List.forall_mem_cons.2 ⟨head.2, rest.2⟩⟩
  | attributeSpread _ _ _ ih =>
    exact ⟨(ih (on.advance 1)).1, by simp [Part.HasValues, HasValue, Attribute.value]⟩
  | @attributeValue _ _ v e _ _ w f _ _ _ skips _ skips' value ih =>
    have on := (((on.advance _).upto skips.upto).advance 1).upto skips'.upto
    refine ⟨(ih on).1, fun u same => ?_⟩
    obtain rfl : w = u := Option.some.inj same
    exact ⟨v, f, e, on, value⟩
  | valueContainer _ _ _ _ ih => exact ⟨(ih (on.advance 1)).1, trivial⟩
  | valueElement _ _ _ ih => exact ⟨(ih on).1, trivial⟩
  | childrenBlock _ block _ ihf ihg =>
    have on := on.advance 1
    exact ⟨hasValue_append (ihf on).1 (ihg ((on.upto block.upto).advance 1)).1, trivial⟩
  | childrenElement _ _ _ inner _ ihf ihg =>
    exact ⟨hasValue_append (ihf on).1 (ihg (on.upto inner.upto)).1, trivial⟩
  | @childrenText _ c _ x t _ hr _ _ _ ih =>
    exact ⟨(ih (on.upto (c.skipText hr).2.upto)).1, trivial⟩

/-- The values of a document have been read from its source. -/
theorem hasValue_of_parse {d : Document} (h : parse source = .ok d) {e : Element}
    (member : e ∈ d.elements) {a : Attribute} (isOne : a ∈ e.attributes) : HasValue source a := by
  have laid := (laid_of_parse h).forest.laid e member
  obtain ⟨f, stop, reads, rfl⟩ := Reads.of_parse h
  exact (reads.hasValues (codeStart_on source)).1 e member a (laid.unchanged ▸ isOne)

/-! ## What the rules say of them -/

namespace IsValue

/-- Code in braces is read as a block. -/
theorem container {span inner : Span} (h : IsValue source (.container span inner)) :
    ∃ f, Reads false .block (place source inner.start) f (place source inner.stop) := by
  obtain ⟨c, f, d, on, reads⟩ := h
  cases reads with
  | @valueContainer _ d t _ hd _ _ block =>
    refine ⟨f, ?_⟩
    change Reads false .block (place source (c.advance 1).offset) f (place source d.offset)
    have on := on.advance 1
    rwa [← on, ← on.upto hd]

/-- A quoted value stands between two quotes of one kind, which is none of it. -/
theorem quoted {span : Span} (h : IsValue source (.quoted span)) :
    ∃ quote raw, Lexeme.isQuote quote = true ∧ quote ∉ raw ∧
      span.text source = quote :: (raw ++ [quote]) := by
  obtain ⟨c, f, d, on, reads⟩ := h
  cases reads with
  | @valueQuoted _ x t n hn hr isQuote closes =>
    obtain ⟨raw, behind, rfl, rfl, first⟩ :=
      (Text.offsetOf?_eq_some_iff (List.cons_ne_nil x [])).1 closes
    refine ⟨x, raw, isQuote, fun member => first ?_, ?_⟩
    · obtain ⟨u, v, rfl⟩ := List.append_of_mem member
      exact ⟨u, v, by simp⟩
    · have rest := congrArg Cursor.rest on
      simp only [place] at rest
      rw [Span.text, Text.slice]
      change (source.drop c.offset).take (c.offset + (raw.length + 2) - c.offset) = _
      rw [← rest, hr, Nat.add_sub_cancel_left, List.take_succ_cons, List.take_length_add_append]
      rfl

end IsValue

end Document

end StyleBinding
