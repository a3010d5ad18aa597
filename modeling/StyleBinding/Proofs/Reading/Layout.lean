import StyleBinding.Proofs.Reading.Relation
import StyleBinding.Proofs.Source.Boundary
import StyleBinding.Proofs.Text.Cutting

/-!
# Where things lie in a source

What reading says about offsets. Declarations follow one another, elements lie
one after another or one inside an attribute or among the children of another,
and no element reaches across the head of a declaration. The attributes of an
element lie one after another between the end of its name and the end of its
region, and the parts of an attribute lie inside it.
-/

namespace StyleBinding

open Document Cursor

variable {strict : Bool}

/-! ## How far a part reaches -/

namespace Document

/-- What stands where a part ends: the end of the source behind code that is not
nested, and the closing brace behind code that is. -/
def Part.EndsAt : Part → Cursor → Prop
  | .code nested _ _, d =>
    match nested with
    | false => d.rest = []
    | true => ∃ t, d.rest = .scalar '}' :: t
  | _, _ => True

theorem Reads.upto_and_endsAt {p : Part} {c d : Cursor} {f : Found} (h : Reads strict p c f d) :
    c.Upto d ∧ p.EndsAt d := by
  induction h with
  | codeEnd skips atEnd => exact ⟨skips.upto, atEnd⟩
  | codeClose skips lead => exact ⟨skips.upto, lead.of_closer⟩
  | codeTemplate skips lead _ _ ihf ihg =>
    obtain ⟨x, t, hr, _⟩ := lead
    exact ⟨skips.upto.trans ((past_of_cons hr).upto.trans (ihf.1.trans ihg.1)), ihg.2⟩
  | codeOpen skips lead _ ih | codeShut skips lead _ ih =>
    obtain ⟨x, t, hr, _⟩ := lead
    exact ⟨skips.upto.trans ((past_of_cons hr).upto.trans ih.1), ih.2⟩
  | codeElement skips _ _ _ ihf ihg | codeDeclaration skips _ _ _ ihf ihg =>
    exact ⟨skips.upto.trans (ihf.1.trans ihg.1), ihg.2⟩
  | @codeToken _ _ _ _ c d k stop _ skips _ _ _ ih =>
    exact ⟨skips.upto.trans (stop.2.upto.trans ih.1), ih.2⟩
  | templateEnd hr => exact ⟨(past_of_cons hr).upto, trivial⟩
  | @templateEscape c d x t g hr _ ih =>
    exact ⟨(upto_advance (c := c) (n := 2) (by simp [hr])).trans ih.1, trivial⟩
  | @templateBlock c d e t f g hr _ _ ihf ihg =>
    obtain ⟨u, hu⟩ := ihf.2
    exact ⟨(upto_advance (c := c) (n := 2) (by simp [hr])).trans
      (ihf.1.trans ((past_of_cons hu).upto.trans ihg.1)), trivial⟩
  | templatePoint hr _ _ _ _ ih => exact ⟨(past_of_cons hr).upto.trans ih.1, trivial⟩
  | declaration _ _ _ he => exact ⟨he, trivial⟩
  | attributesNone => exact ⟨.refl _, trivial⟩
  | attributesBlock brace hr _ ih =>
    obtain ⟨d, skips, _, skips'⟩ := brace
    obtain ⟨u, hu⟩ := ih.2
    exact ⟨skips.upto.trans ((upto_advance (Lexeme.nameLength_le d.rest)).trans
      (skips'.upto.trans ((past_of_cons hr).upto.trans
        (ih.1.trans (past_of_cons hu).upto)))), trivial⟩
  | fragment he | elementClosed he | elementOpen he | attributeSpread he | attributeName he
  | attributeValue he | valueQuoted he | valueElement he => exact ⟨he, trivial⟩
  | valueContainer _ hc => exact ⟨hc, trivial⟩
  | tagClosed skips closes =>
    exact ⟨skips.upto.trans (upto_advance (le_length_of_startsWith closes)), trivial⟩
  | tagOpen skips hr => exact ⟨skips.upto.trans (past_of_cons hr).upto, trivial⟩
  | tagAttribute skips _ _ _ _ _ ihf ihg =>
    exact ⟨skips.upto.trans (ihf.1.trans ihg.1), trivial⟩
  | childrenBlock hr _ _ ihf ihg =>
    obtain ⟨u, hu⟩ := ihf.2
    exact ⟨(past_of_cons hr).upto.trans (ihf.1.trans ((past_of_cons hu).upto.trans ihg.1)),
      trivial⟩
  | childrenClose hr skips _ hn _ =>
    exact ⟨(past_of_cons hr).upto.trans (skips.upto.trans
      (upto_advance (Text.offsetOf?_le hn))), trivial⟩
  | childrenElement _ _ _ _ _ ihf ihg => exact ⟨ihf.1.trans ihg.1, trivial⟩
  | @childrenText _ c _ x t _ hr _ _ _ ih =>
    exact ⟨(c.skipText hr).2.upto.trans ih.1, trivial⟩

theorem Reads.upto {p : Part} {c d : Cursor} {f : Found} (h : Reads strict p c f d) : c.Upto d :=
  h.upto_and_endsAt.1

theorem Reads.endsAt {p : Part} {c d : Cursor} {f : Found} (h : Reads strict p c f d) :
    p.EndsAt d :=
  h.upto_and_endsAt.2

end Document

/-! ## Attributes -/

/-- How a value lies that is read from a source: its delimiters stand around its
code. -/
inductive AttributeValue.Laid : AttributeValue → Prop
  | quoted {s : Span} : s.start + 2 ≤ s.stop → Laid (.quoted s)
  | container {s inner : Span} :
    s.start + 1 = inner.start → inner.stop + 1 = s.stop → Laid (.container s inner)
  | element {s : Span} : s.start < s.stop → Laid (.element s)

theorem AttributeValue.Laid.start_lt {v : AttributeValue} (h : v.Laid) :
    v.span.start < v.span.stop := by
  cases h with
  | quoted le => simp only [AttributeValue.span]; omega
  | @container s inner start stop => have := inner.le; simp only [AttributeValue.span]; omega
  | element lt => exact lt

theorem AttributeValue.Laid.code_within {v : AttributeValue} (h : v.Laid) :
    v.code.Within v.span := by
  cases h with
  | quoted | element => exact ⟨Nat.le_refl _, Nat.le_refl _⟩
  | container start stop => constructor <;> simp only [code, span] <;> omega

/-- How an attribute lies that is read from a span: a spread fills it, a name
starts it, and a value behind the name ends it. -/
inductive Attribute.Laid : Attribute → Span → Prop
  | spread {s : Span} : s.start + 2 ≤ s.stop → Laid ⟨none, .written s none none⟩ s
  | bare {s : Span} {name : Text} :
    name ≠ [] → s.start + name.length = s.stop → Laid ⟨some name, .written s (some name) none⟩ s
  | valued {s : Span} {name : Text} {v : AttributeValue} :
    name ≠ [] → s.start + name.length < v.span.start → v.span.stop = s.stop → v.Laid →
    Laid ⟨some name, .written s (some name) (some v)⟩ s

theorem Attribute.Laid.start_lt {a : Attribute} {s : Span} (h : a.Laid s) : s.start < s.stop := by
  cases h with
  | spread le => omega
  | bare nonempty stop => have := List.length_pos_iff.2 nonempty; omega
  | valued _ start stop laid => have := laid.start_lt; omega

/-- The span of an attribute is the one it carries. -/
theorem Attribute.Laid.span_unique {a : Attribute} {s t : Span} (h : a.Laid s) (k : a.Laid t) :
    s = t := by
  cases h <;> cases k <;> rfl

/-- Attributes that lie one after another from an offset to another, where the
last of them ends. -/
inductive Attribute.LaidOut : Nat → List Attribute → Nat → Prop
  | nil {start : Nat} : LaidOut start [] start
  | cons {start stop : Nat} {a : Attribute} {s : Span} {rest : List Attribute} :
    a.Laid s → start ≤ s.start → LaidOut s.stop rest stop → LaidOut start (a :: rest) stop

namespace Attribute.LaidOut

variable {start stop : Nat} {attributes : List Attribute}

theorem le (h : LaidOut start attributes stop) : start ≤ stop := by
  induction h with
  | nil => exact Nat.le_refl _
  | cons laid le _ ih => have := laid.start_lt; omega

/-- Every attribute lies between the two offsets. -/
theorem bounds (h : LaidOut start attributes stop) {a : Attribute} (member : a ∈ attributes) :
    ∃ s, a.Laid s ∧ start ≤ s.start ∧ s.stop ≤ stop := by
  induction h with
  | nil => cases member
  | @cons start stop b s rest laid le tail ih =>
    rcases List.mem_cons.1 member with rfl | member
    · exact ⟨s, laid, le, tail.le⟩
    · obtain ⟨u, hu, above, below⟩ := ih member
      have := laid.start_lt
      exact ⟨u, hu, by omega, below⟩

/-- Two attributes are the same, or one lies behind the other. -/
theorem apart (h : LaidOut start attributes stop) {a b : Attribute} (memberA : a ∈ attributes)
    (memberB : b ∈ attributes) {s t : Span} (laidA : a.Laid s) (laidB : b.Laid t) :
    s = t ∨ s.stop ≤ t.start ∨ t.stop ≤ s.start := by
  induction h with
  | nil => cases memberA
  | @cons start stop c u rest laid le tail ih =>
    rcases List.mem_cons.1 memberA with rfl | behindA
    · obtain rfl := laidA.span_unique laid
      rcases List.mem_cons.1 memberB with rfl | behindB
      · exact .inl (laidA.span_unique laidB)
      · obtain ⟨v, laidV, above, _⟩ := tail.bounds behindB
        obtain rfl := laidB.span_unique laidV
        exact .inr (.inl above)
    · rcases List.mem_cons.1 memberB with rfl | behindB
      · obtain rfl := laidB.span_unique laid
        obtain ⟨v, laidV, above, _⟩ := tail.bounds behindA
        obtain rfl := laidA.span_unique laidV
        exact .inr (.inr above)
      · exact ih behindA behindB

end Attribute.LaidOut

namespace Document

theorem Reads.element_offset_lt {c d : Cursor} {f : Found} (h : Reads strict .element c f d) :
    c.offset < d.offset := by
  cases h with
  | fragment _ _ skips _ inner | elementClosed _ _ skips _ _ inner =>
    have first := skips.upto.offset_le
    have second := inner.upto.offset_le
    simp only [advance] at first second
    omega
  | elementOpen _ _ skips _ _ tag inner =>
    have first := skips.upto.offset_le
    have second := tag.upto.offset_le
    have third := inner.upto.offset_le
    simp only [advance] at first second
    omega

theorem Reads.value_laid {v : AttributeValue} {c d : Cursor} {f : Found}
    (h : Reads strict (.value v) c f d) :
    v.span.start = c.offset ∧ v.span.stop = d.offset ∧ v.Laid := by
  cases h with
  | valueQuoted => exact ⟨rfl, rfl, .quoted (by simp [spanTo, advance])⟩
  | valueContainer => exact ⟨rfl, rfl, .container rfl rfl⟩
  | valueElement _ _ element => exact ⟨rfl, rfl, .element element.element_offset_lt⟩

theorem Reads.attribute_laid {a : Attribute} {c d : Cursor} {f : Found}
    (h : Reads strict (.attribute a) c f d) :
    ∃ s, a.Laid s ∧ s.start = c.offset ∧ s.stop = d.offset := by
  cases h with
  | attributeSpread hd hr block =>
    refine ⟨_, .spread ?_, rfl, rfl⟩
    have := block.upto.offset_le
    simp only [spanTo, advance] at this ⊢
    omega
  | attributeName hn eq pos =>
    have := Lexeme.attributeNameLength_le c.rest
    refine ⟨_, .bare ?_ ?_, rfl, rfl⟩
    · exact List.ne_nil_of_length_pos (by rw [List.length_take]; omega)
    · simp only [spanTo, advance, List.length_take]
      omega
  | attributeValue he eq pos skips hx skips' value =>
    have := Lexeme.attributeNameLength_le c.rest
    obtain ⟨start, stop, laid⟩ := value.value_laid
    refine ⟨_, .valued ?_ ?_ stop laid, rfl, rfl⟩
    · exact List.ne_nil_of_length_pos (by rw [List.length_take]; omega)
    · have first := skips.upto.offset_le
      have second := skips'.upto.offset_le
      simp only [spanTo, advance, List.length_take] at first second ⊢
      omega

/-- What reading a tag says about its attributes: they lie one after another up to
the end of the region, in front of the mark that ends the tag. -/
theorem Reads.tag_laid {before after : Span} {attributes : List Attribute} {selfClosing : Bool}
    {c d : Cursor} {f : Found} (h : Reads strict (.tag before after attributes selfClosing) c f d)
    (start : before.stop = c.offset) :
    after.start = before.start ∧ Attribute.LaidOut before.stop attributes after.stop ∧
      after.stop < d.offset := by
  cases h with
  | tagClosed skips | tagOpen skips =>
    have := skips.upto.offset_le
    refine ⟨rfl, .nil, ?_⟩
    simp only [advance]
    omega
  | @tagAttribute _ _ a attributes _ c d e k x t f g skips hr noSlash noClose head rest =>
    have first := skips.upto.offset_le
    have second := head.upto.offset_le
    obtain ⟨s, laid, atStart, atStop⟩ := head.attribute_laid
    have stop : (before.extendTo e.offset).stop = e.offset := by
      simp only [Span.extendTo]
      omega
    obtain ⟨same, laidOut, lt⟩ := rest.tag_laid stop
    rw [stop, ← atStop] at laidOut
    exact ⟨same, .cons laid (by omega) laidOut, lt⟩

/-- A name does not follow a name directly, so a named attribute starts behind the
place where its tag starts. -/
theorem Reads.tag_named {before after : Span} {attributes : List Attribute} {selfClosing : Bool}
    {c d : Cursor} {f : Found} (h : Reads strict (.tag before after attributes selfClosing) c f d)
    (start : before.stop = c.offset) (apart : ∀ x, c.rest.head? = some x → x.isTag = false)
    {a : Attribute} {s : Span} (member : a ∈ attributes) (named : a.name ≠ none)
    (laid : a.Laid s) : c.offset < s.start := by
  cases h with
  | tagClosed | tagOpen => cases member
  | @tagAttribute _ _ b attributes _ c d e k x t f g skips hr noSlash noClose head rest =>
    have first := skips.upto.offset_le
    obtain ⟨u, laidHead, atStart, atStop⟩ := head.attribute_laid
    rcases List.mem_cons.1 member with rfl | member
    · obtain rfl := laid.span_unique laidHead
      rw [atStart]
      refine Nat.lt_of_le_of_ne first fun same => ?_
      obtain ⟨n, le, rfl⟩ := skips.upto
      obtain rfl : n = 0 := by simp only [advance] at same; omega
      rw [advance_zero] at head
      cases head with
      | attributeSpread => exact named rfl
      | attributeName _ eq pos | attributeValue _ eq pos =>
        obtain ⟨y, hy, starts⟩ := Lexeme.attributeNameLength_starts (eq ▸ pos)
        exact Bool.false_ne_true ((apart y hy).symm.trans (CodePoint.isTag_of_isTagStart starts))
    · have laidOut := (rest.tag_laid (by
        have := head.upto.offset_le
        simp only [Span.extendTo]
        omega)).2.1
      obtain ⟨v, laidV, above, _⟩ := laidOut.bounds member
      obtain rfl := laid.span_unique laidV
      have := laidHead.start_lt
      simp only [Span.extendTo] at above
      omega

end Document

end StyleBinding
