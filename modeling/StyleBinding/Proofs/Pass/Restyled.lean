import StyleBinding.Document.Change
import StyleBinding.Proofs.Expression.Shape
import StyleBinding.Proofs.Printing.Nesting
import StyleBinding.Proofs.Reading.Forest
import StyleBinding.Stylesheet.Pass

/-!
# Restyled elements

Restyling changes the attributes of exactly those elements that have a class
attribute. What the new attributes copy lies inside the region of the element
and leaves a part of it out, for a class attribute stands in it with something
in front. So they can be printed wherever the element may stand.
-/

namespace StyleBinding

open Vocabulary

/-! ## Attributes as they were read -/

section Written

variable {p : Span → Prop} {a : Attribute} {s : Span}

/-- Printing an attribute that was read asks for its span. -/
theorem Attribute.Laid.grounded (h : a.Laid s) (hp : p s) : a.Grounded p := by
  cases h with
  | spread => exact hp
  | bare | valued => simpa only [Grounded, if_pos] using hp

/-- Printing an attribute that was read and renamed asks for a part of its span. -/
theorem Attribute.Laid.grounded_renamed (h : a.Laid s) (name : Text)
    (hp : ∀ t : Span, t.Within s → p t) : (a.renamed name).Grounded p := by
  have tail {n : Nat} (le : s.start + n ≤ s.stop) :
      ∃ rest, Span.ofBounds (s.start + n) s.stop = .ok rest ∧ p rest :=
    ⟨⟨s.start + n, s.stop, le⟩, dif_pos le, hp _ ⟨Nat.le_add_right _ _, Nat.le_refl _⟩⟩
  cases h with
  | spread => exact tail s.le
  | @bare _ sourceName _ stop =>
    simp only [Grounded, renamed]
    split
    · exact hp s (.refl s)
    · exact tail (Nat.le_of_eq stop)
  | @valued _ sourceName v _ start stop laid =>
    simp only [Grounded, renamed]
    split
    · exact hp s (.refl s)
    · have := laid.start_lt
      exact tail (by simp only [Option.getD_some]; omega)

/-- The code of the value of an attribute that was read lies in its span. -/
theorem Attribute.Laid.code_within (h : a.Laid s) {v : AttributeValue} (hv : a.value = some v) :
    v.code.Within s := by
  cases h with
  | spread | bare => cases hv
  | valued _ start stop laid =>
    cases hv
    have within := laid.code_within
    exact ⟨by have := within.1; omega, by have := within.2; omega⟩

theorem Attribute.Laid.origin_ne_generated (h : a.Laid s) {code : List CodePiece} :
    a.origin ≠ .generated code := by
  cases h <;> exact Attribute.Origin.noConfusion

theorem Attribute.Laid.origin_ne_unwritten (h : a.Laid s) : a.origin ≠ .unwritten := by
  cases h <;> exact Attribute.Origin.noConfusion

end Written

/-- The name of an attribute that was read is no longer than its span. -/
theorem Attribute.Laid.name_le {a : Attribute} {s span : Span} {name : Option Text}
    {value : Option AttributeValue} (h : a.Laid s)
    (isWritten : a.origin = .written span name value) :
    span.start + (name.getD []).length ≤ span.stop := by
  cases h with
  | spread le =>
    cases isWritten
    simp only [Option.getD_none, List.length_nil]
    omega
  | bare _ stop =>
    cases isWritten
    exact Nat.le_of_eq stop
  | valued _ start stop laid =>
    cases isWritten
    have := laid.start_lt
    simp only [Option.getD_some]
    omega

/-! ## Elements with class names -/

/-- Whether an element was read with a class attribute. -/
def Element.hasClass (e : Element) : Bool := e.parsed.any (·.isNamed classAttribute)

theorem Attribute.isNamed_iff {name : Text} {a : Attribute} :
    a.isNamed name = true ↔ a.name = some name := beq_iff_eq

/-- Next to a class attribute, no attribute fills the whole region. -/
theorem Element.Laid.inside {e : Element} (h : e.Laid) (has : e.hasClass = true) {a : Attribute}
    {s : Span} (member : a ∈ e.parsed) (laid : a.Laid s) : s.Inside e.region := by
  obtain ⟨c, memberC, named⟩ := List.any_eq_true.1 has
  rw [Attribute.isNamed_iff] at named
  obtain ⟨t, laidC, _, stopC⟩ := h.laidOut.bounds memberC
  have startC := h.named memberC (by simp [named]) laidC
  obtain ⟨u, laidU, start, stop⟩ := h.laidOut.bounds member
  obtain rfl := laid.span_unique laidU
  refine ⟨⟨start, stop⟩, fun whole => ?_⟩
  have := whole.1
  have := whole.2
  have := laid.start_lt
  have := laidC.start_lt
  rcases h.laidOut.apart member memberC laid laidC with rfl | behind | before <;> omega

theorem Element.attribute?_mem {e : Element} {name : Text} {a : Attribute}
    (h : e.attribute? name = some a) : a ∈ e.attributes :=
  List.mem_reverse.1 (List.mem_of_find?_eq_some h)

theorem Element.Laid.hasClass_eq {e : Element} (h : e.Laid) :
    e.hasClass = (e.attribute? classAttribute).isSome := by
  rw [Bool.eq_iff_iff, attribute?, List.find?_isSome, h.unchanged, hasClass, List.any_eq_true]
  simp only [List.mem_reverse, Attribute.isNamed]

/-! ## What the new code copies -/

section Copies

variable {p : Span → Prop} {source : Text}

/-- The stretches that a class value copies have a property. -/
def ClassValue.Copies (p : Span → Prop) (v : ClassValue) : Prop :=
  ∀ s, v = .dynamic (.source s) → p s

/-- The stretches that an inline style copies have a property. -/
def InlineStyle.Copies (p : Span → Prop) : InlineStyle → Prop
  | .absent => True
  | .expression code => ∀ s, code = .source s → p s
  | .array _ elements => p elements

theorem ClassValue.Copies.mono {q : Span → Prop} {v : ClassValue} (h : v.Copies p)
    (le : ∀ s, p s → q s) : v.Copies q :=
  fun s isDynamic => le s (h s isDynamic)

theorem InlineStyle.Copies.mono {q : Span → Prop} {style : InlineStyle} (h : style.Copies p)
    (le : ∀ s, p s → q s) : style.Copies q := by
  cases style with
  | absent => trivial
  | expression code => exact fun s isSource => le s (h s isSource)
  | array code elements => exact le elements h

theorem Attribute.Laid.classValue_copies {a : Attribute} {s : Span} (h : a.Laid s)
    (source : Text) :
    (a.classValue source).Copies (·.Within s) := by
  intro t isDynamic
  unfold Attribute.classValue at isDynamic
  split at isDynamic
  · cases isDynamic
  · cases isDynamic
  · rename_i span hv
    cases isDynamic
    exact h.code_within hv
  · rename_i whole inner hv
    split at isDynamic
    · cases isDynamic
    · cases isDynamic
      exact h.code_within hv

/-- The elements of a style array lie between the braces of its attribute. -/
theorem Attribute.inlineStyle_array {a : Attribute} {code elements : Span}
    (h : a.inlineStyle source = .array code elements) :
    elements.Within code ∧ ∃ whole, a.value = some (.container whole code) := by
  unfold Attribute.inlineStyle at h
  split at h
  · cases h
  · cases h
  · cases h
  · rename_i whole inner hv
    split at h
    · rename_i inside hi
      cases h
      obtain ⟨shape, isShape, isInner⟩ := Option.bind_eq_some_iff.1 hi
      have le := Shape.parse_innerUpto isShape inside isInner
      have length : (code.text source).length ≤ code.stop - code.start := by
        rw [Span.text, Text.slice, List.length_take]
        exact Nat.min_le_left _ _
      have := code.le
      have := Span.strip_bounds source (inside.shift code.start)
      simp only [Span.shift] at this
      refine ⟨⟨?_, ?_⟩, whole, hv⟩
      · simp only [Span.strip, Span.shift]
        omega
      · simp only [Span.strip, Span.shift]
        omega
    · cases h

theorem Attribute.Laid.inlineStyle_copies {a : Attribute} {s : Span} (h : a.Laid s)
    (source : Text) :
    (a.inlineStyle source).Copies (·.Within s) := by
  generalize eq : a.inlineStyle source = style
  cases style with
  | absent => trivial
  | array code elements =>
    obtain ⟨within, whole, hv⟩ := Attribute.inlineStyle_array eq
    exact within.trans (h.code_within hv)
  | expression code =>
    rintro t rfl
    unfold Attribute.inlineStyle at eq
    split at eq
    · cases eq
    · rename_i hv
      cases eq
      exact h.code_within hv
    · rename_i hv
      cases eq
      exact h.code_within hv
    · rename_i hv
      split at eq
      · cases eq
      · cases eq
        exact h.code_within hv

/-- Expressions with commas between them are made of their pieces and commas. -/
theorem mem_commaSeparated {items : List (List CodePiece)} {piece : CodePiece}
    (h : piece ∈ commaSeparated items) :
    piece = .literal ", " ∨ ∃ item ∈ items, piece ∈ item := by
  induction items with
  | nil => cases h
  | cons item rest ih =>
    cases rest with
    | nil =>
      rw [commaSeparated, List.intercalate_singleton] at h
      exact .inr ⟨item, List.mem_cons_self, h⟩
    | cons next more =>
      rw [commaSeparated, List.intercalate_cons_cons] at h
      rcases List.mem_append.1 h with inFront | inRest
      · rcases List.mem_append.1 inFront with inItem | isComma
        · exact .inr ⟨item, List.mem_cons_self, inItem⟩
        · exact .inl (List.mem_singleton.1 isComma)
      · exact (ih inRest).imp_right fun ⟨found, member, isIn⟩ =>
          ⟨found, List.mem_cons_of_mem _ member, isIn⟩

theorem mem_commaSeparated_of_mem {items : List (List CodePiece)} {item : List CodePiece}
    {piece : CodePiece} (member : item ∈ items) (isIn : piece ∈ item) :
    piece ∈ commaSeparated items := by
  induction items with
  | nil => cases member
  | cons first rest ih =>
    cases rest with
    | nil =>
      rw [commaSeparated, List.intercalate_singleton]
      exact List.mem_singleton.1 member ▸ isIn
    | cons next more =>
      rw [commaSeparated, List.intercalate_cons_cons]
      rcases List.mem_cons.1 member with rfl | member
      · exact List.mem_append_left _ (List.mem_append_left _ isIn)
      · exact List.mem_append_right _ (ih member)

theorem mem_enclosed {opening closing : Text} {items : List (List CodePiece)} {piece : CodePiece}
    (h : piece ∈ enclosed opening items closing) :
    piece ∈ [.literal opening, .literal ", ", .literal closing] ∨
      ∃ item ∈ items, piece ∈ item := by
  rcases List.mem_append.1 h with h | isClosing
  · rcases List.mem_cons.1 h with rfl | h
    · exact .inl List.mem_cons_self
    · exact (mem_commaSeparated h).imp_left fun isComma => by simp [isComma]
  · exact .inl (by simp [List.mem_singleton.1 isClosing])

theorem mem_enclosed_of_mem {opening closing : Text} {items : List (List CodePiece)}
    {item : List CodePiece} {piece : CodePiece} (member : item ∈ items) (isIn : piece ∈ item) :
    piece ∈ enclosed opening items closing :=
  List.mem_append_left _ (List.mem_cons_of_mem _ (mem_commaSeparated_of_mem member isIn))

/-- What stands around and between expressions in a style. -/
def separators : List CodePiece :=
  [.literal "[", .literal "]", .literal "Object.assign(", .literal "\x7b\x7d", .literal ", ",
    .literal ")"]

/-- The piece of code that an inline style contributes to a style expression. -/
def InlineStyle.piece? : InlineStyle → Option CodePiece
  | .absent => none
  | .expression code => some code
  | .array _ elements => some (.source elements)

theorem mem_arrayCode {items : List (List CodePiece)} {piece : CodePiece}
    (h : piece ∈ arrayCode items) : piece ∈ separators ∨ ∃ item ∈ items, piece ∈ item := by
  have around : ∀ q ∈ [CodePiece.literal "[", .literal ", ", .literal "]"], q ∈ separators := by
    decide
  exact (mem_enclosed h).imp_left (around piece)

theorem mem_assignCode {items : List (List CodePiece)} {piece : CodePiece}
    (h : piece ∈ assignCode items) : piece ∈ separators ∨ ∃ item ∈ items, piece ∈ item := by
  have around : ∀ q ∈ [CodePiece.literal "Object.assign(", .literal ", ", .literal ")"],
      q ∈ separators := by
    decide
  rcases mem_enclosed h with isOne | ⟨item, member, isIn⟩
  · exact .inl (around piece isOne)
  · rcases List.mem_cons.1 member with rfl | member
    · exact .inl (by simp [separators, List.mem_singleton.1 isIn])
    · exact .inr ⟨item, member, isIn⟩

/-- A style expression is made of the entries of the class names, the inline style,
and separators. -/
theorem ClassValue.mem_styleExpression {v : ClassValue} {style : InlineStyle} {piece : CodePiece}
    (h : piece ∈ v.styleExpression style) :
    piece ∈ separators ∨ (∃ entry ∈ v.entries, piece ∈ entry) ∨ style.piece? = some piece := by
  cases style with
  | array code elements =>
    refine (mem_arrayCode h).imp_right fun ⟨item, member, isIn⟩ => ?_
    rcases List.mem_append.1 member with member | member
    · exact .inl ⟨item, member, isIn⟩
    · split at member
      · cases member
      · cases List.mem_singleton.1 member
        exact .inr (congrArg some (List.mem_singleton.1 isIn).symm)
  | expression code =>
    refine (mem_assignCode h).imp_right fun ⟨item, member, isIn⟩ => ?_
    rcases List.mem_append.1 member with member | member
    · exact .inl ⟨item, member, isIn⟩
    · cases List.mem_singleton.1 member
      exact .inr (congrArg some (List.mem_singleton.1 isIn).symm)
  | absent =>
    simp only [ClassValue.styleExpression] at h
    split at h
    · rename_i entry only
      exact .inr (.inl ⟨entry, only ▸ List.mem_singleton_self entry, h⟩)
    · exact (mem_assignCode h).imp_right .inl

/-- The entries of the class names are in the style expression. -/
theorem ClassValue.mem_styleExpression_of_mem {v : ClassValue} {style : InlineStyle}
    {entry : List CodePiece} {piece : CodePiece} (member : entry ∈ v.entries)
    (isIn : piece ∈ entry) : piece ∈ v.styleExpression style := by
  cases style with
  | array code elements => exact mem_enclosed_of_mem (List.mem_append_left _ member) isIn
  | expression code =>
    exact mem_enclosed_of_mem (List.mem_cons_of_mem _ (List.mem_append_left _ member)) isIn
  | absent =>
    simp only [ClassValue.styleExpression]
    split
    · rename_i entry' only
      rw [only] at member
      exact List.mem_singleton.1 member ▸ isIn
    · exact mem_enclosed_of_mem (List.mem_cons_of_mem _ member) isIn

theorem ClassValue.Copies.entries {v : ClassValue} (h : v.Copies p) {s : Span}
    {entry : List CodePiece} (member : entry ∈ v.entries) (isIn : CodePiece.source s ∈ entry) :
    p s := by
  cases v with
  | static tokens =>
    obtain ⟨token, _, rfl⟩ := List.mem_map.1 member
    cases List.mem_singleton.1 isIn
  | dynamic expression =>
    cases List.mem_singleton.1 member
    rcases List.mem_cons.1 isIn with same | isIn
    · cases same
    · rcases List.mem_cons.1 isIn with same | isIn
      · exact h s (same ▸ rfl)
      · cases List.mem_singleton.1 isIn

/-- The style expression copies what the class names and the style copy. -/
theorem ClassValue.Copies.styleExpression {v : ClassValue} (h : v.Copies p) {style : InlineStyle}
    (k : style.Copies p) {s : Span} (isIn : CodePiece.source s ∈ v.styleExpression style) :
    p s := by
  rcases ClassValue.mem_styleExpression isIn with separates | ⟨entry, member, isIn⟩ | isPiece
  · simp [separators] at separates
  · exact h.entries member isIn
  · cases style with
    | absent => cases isPiece
    | expression code => exact k s (Option.some.inj isPiece)
    | array code elements =>
      cases isPiece
      exact k

end Copies

/-! ## Class values -/

namespace Element

variable (source : Text) (settings : Settings) (e : Element)

/-- The class names of an element, which are those of its last class attribute. -/
def classValue? : Option ClassValue :=
  (e.attribute? classAttribute).map (·.classValue source)

/-- The style of an element, which is that of its last style attribute. -/
def inlineStyle : InlineStyle :=
  ((e.attribute? styleAttribute).map (·.inlineStyle source)).getD .absent

/-- An element is classified by its class names and its style. -/
theorem classify_eq :
    e.classify source =
      if e.classValue? source = none ∧ (e.attribute? styleAttribute).isNone then none
      else some ⟨e.classValue? source, e.inlineStyle source⟩ := by
  rw [classify, classValue?, inlineStyle]
  cases e.attribute? classAttribute with
  | some a => rfl
  | none => cases e.attribute? styleAttribute <;> rfl

variable {source e} in
theorem style_of_classify {c : Classification} (hc : e.classify source = some c) :
    c.style = e.inlineStyle source := by
  rw [classify_eq] at hc
  split at hc
  · cases hc
  · cases hc
    rfl

variable {source e} in
/-- A style that is an array is that of an attribute. -/
theorem mem_of_inlineStyle_array {code elements : Span}
    (h : e.inlineStyle source = .array code elements) :
    ∃ a ∈ e.attributes, a.inlineStyle source = .array code elements := by
  rw [inlineStyle] at h
  cases found : e.attribute? styleAttribute with
  | none =>
    rw [found] at h
    cases h
  | some a =>
    rw [found] at h
    exact ⟨a, attribute?_mem found, h⟩

/-- The attributes of a restyled element. -/
theorem restyle_attributes :
    (e.restyle source settings).attributes =
      match e.classValue? source with
      | none => e.attributes
      | some v =>
        if v.isEmpty then mapClasses (fun _ => []) e.attributes
        else mapClasses settings.classAttributes
          (replaceLast styleAttribute (.generate styleAttribute
            (v.styleExpression (e.inlineStyle source))) e.attributes) := by
  rw [restyle, classify_eq]
  cases e.classValue? source with
  | none =>
    split
    · rfl
    · rename_i c hc
      split at hc
      · cases hc
      · cases hc
        rfl
  | some v =>
    rw [if_neg (by simp)]
    simp only [resolve, Classification.resolve, Classification.styleExpression,
      Classification.resolvable, Option.filter_some]
    cases v.isEmpty <;> rfl

end Element

/-! ## The attributes of a restyled element -/

theorem mem_mapClasses {f : Attribute → List Attribute} {attributes : List Attribute}
    {a : Attribute} (h : a ∈ mapClasses f attributes) :
    (a ∈ attributes ∧ a.isNamed classAttribute = false) ∨
      ∃ c ∈ attributes, c.isNamed classAttribute = true ∧ a ∈ f c := by
  obtain ⟨c, member, isIn⟩ := List.mem_flatMap.1 h
  split at isIn
  · rename_i isClass
    exact .inr ⟨c, member, isClass, isIn⟩
  · rename_i other
    obtain rfl := List.mem_singleton.1 isIn
    exact .inl ⟨member, eq_false_of_ne_true other⟩

theorem mem_mapClasses_of_other {f : Attribute → List Attribute} {attributes : List Attribute}
    {a : Attribute} (member : a ∈ attributes) (other : a.isNamed classAttribute = false) :
    a ∈ mapClasses f attributes :=
  List.mem_flatMap.2 ⟨a, member, by
    rw [if_neg (by simp [other])]
    exact List.mem_singleton_self a⟩

theorem generate_style_not_class (code : List CodePiece) :
    (Attribute.generate styleAttribute code).isNamed classAttribute = false := by
  change (some styleAttribute == some classAttribute) = false
  decide

theorem mem_replaceLast {name : Text} {new a : Attribute} {attributes : List Attribute}
    (h : a ∈ replaceLast name new attributes) : a = new ∨ a ∈ attributes := by
  induction attributes with
  | nil => exact .inl (List.mem_singleton.1 h)
  | cons b rest ih =>
    rw [replaceLast] at h
    split at h
    · rcases List.mem_cons.1 h with rfl | h
      · exact .inr List.mem_cons_self
      · exact (ih h).imp_right (List.mem_cons_of_mem b)
    · exact (List.mem_cons.1 h).imp_right (List.mem_cons_of_mem b)

theorem new_mem_replaceLast (name : Text) (new : Attribute) (attributes : List Attribute) :
    new ∈ replaceLast name new attributes := by
  induction attributes with
  | nil => exact List.mem_singleton_self new
  | cons b rest ih =>
    rw [replaceLast]
    split
    · exact List.mem_cons_of_mem b ih
    · exact List.mem_cons_self

theorem Settings.mem_classAttributes {settings : Settings} {a c : Attribute}
    (h : a ∈ settings.classAttributes c) : a = c ∨ a = c.renamed debugAttribute := by
  unfold classAttributes at h
  split at h
  · exact .inl (List.mem_singleton.1 h)
  · split at h
    · exact .inr (List.mem_singleton.1 h)
    · cases h

namespace Element

variable {source : Text} {settings : Settings} {e : Element}

@[simp] theorem restyle_name : (e.restyle source settings).name = e.name := by
  unfold restyle
  split <;> rfl

@[simp] theorem restyle_span : (e.restyle source settings).span = e.span := by
  unfold restyle
  split <;> rfl

@[simp] theorem restyle_region : (e.restyle source settings).region = e.region := by
  unfold restyle
  split <;> rfl

@[simp] theorem restyle_parsed : (e.restyle source settings).parsed = e.parsed := by
  unfold restyle
  split <;> rfl

@[simp] theorem restyle_reset : (e.restyle source settings).reset = e.reset := by
  unfold restyle
  split <;> rfl

/-- An element without class attributes stays as it is. -/
theorem restyle_of_not_hasClass (h : e.Laid) (hasNot : e.hasClass = false) :
    e.restyle source settings = e := by
  have none : e.attribute? classAttribute = none := by
    rw [h.hasClass_eq] at hasNot
    simpa using hasNot
  unfold restyle
  split
  · rfl
  · rename_i c hc
    rw [classify, none] at hc
    split at hc
    · cases hc
    · cases hc
      rfl

/-- The class names of an element with a class attribute. -/
theorem Laid.classValue?_eq (h : e.Laid) (has : e.hasClass = true) (source : Text) :
    ∃ a ∈ e.parsed, e.classValue? source = some (a.classValue source) := by
  rw [h.hasClass_eq, Option.isSome_iff_exists] at has
  obtain ⟨a, found⟩ := has
  exact ⟨a, h.unchanged ▸ attribute?_mem found, by rw [classValue?, found]; rfl⟩

/-- A stretch that an attribute of an element covers a part of. -/
def Copied (e : Element) (s : Span) : Prop := ∃ a ∈ e.parsed, ∃ t, a.Laid t ∧ s.Within t

theorem Laid.inlineStyle_copies (h : e.Laid) (source : Text) :
    (e.inlineStyle source).Copies e.Copied := by
  rw [inlineStyle]
  cases found : e.attribute? styleAttribute with
  | none => trivial
  | some a =>
    have member : a ∈ e.parsed := h.unchanged ▸ attribute?_mem found
    obtain ⟨t, laid, _⟩ := h.laidOut.bounds member
    exact (laid.inlineStyle_copies source).mono fun s within => ⟨a, member, t, laid, within⟩

/-- What a restyled element with class names has for attributes: those that were
read, class attributes under the name for debugging, and a style with code that
copies parts of what was read. -/
theorem mem_restyle_attributes (h : e.Laid) (has : e.hasClass = true) {a : Attribute}
    (member : a ∈ (e.restyle source settings).attributes) :
    a ∈ e.parsed ∨ (∃ c ∈ e.parsed, a = c.renamed debugAttribute) ∨
      ∃ code, a = .generate styleAttribute code ∧ ∀ s, .source s ∈ code → e.Copied s := by
  obtain ⟨b, memberB, value⟩ := h.classValue?_eq has source
  simp only [restyle_attributes, value, h.unchanged] at member
  split at member
  · rcases mem_mapClasses member with ⟨member, _⟩ | ⟨_, _, _, isIn⟩
    · exact .inl member
    · cases isIn
  · rcases mem_mapClasses member with ⟨member, _⟩ | ⟨c, memberC, isClass, isIn⟩
    · rcases mem_replaceLast member with rfl | member
      · refine .inr (.inr ⟨_, rfl, fun s isIn => ?_⟩)
        obtain ⟨t, laid, _⟩ := h.laidOut.bounds memberB
        have copies : (b.classValue source).Copies e.Copied :=
          (laid.classValue_copies source).mono fun s within => ⟨b, memberB, t, laid, within⟩
        exact copies.styleExpression (h.inlineStyle_copies source) isIn
      · exact .inl member
    · rcases mem_replaceLast memberC with rfl | memberC
      · rw [generate_style_not_class] at isClass
        cases isClass
      · rcases settings.mem_classAttributes isIn with rfl | rfl
        · exact .inl memberC
        · exact .inr (.inl ⟨c, memberC, rfl⟩)

/-- Restyling changes an element if and only if it has a class attribute. -/
theorem isChanged_restyle (h : e.Laid) (source : Text) (settings : Settings) :
    (e.restyle source settings).isChanged = e.hasClass := by
  cases has : e.hasClass with
  | false =>
    rw [restyle_of_not_hasClass h has, isChanged, h.unchanged, bne_self_eq_false]
  | true =>
    rw [isChanged, bne_iff_ne, restyle_parsed]
    intro same
    obtain ⟨b, _, value⟩ := h.classValue?_eq has source
    simp only [restyle_attributes, value, h.unchanged] at same
    split at same
    · obtain ⟨c, member, isClass⟩ := List.any_eq_true.1 has
      rw [← same] at member
      rcases mem_mapClasses member with ⟨_, other⟩ | ⟨_, _, _, isIn⟩
      · rw [isClass] at other
        cases other
      · cases isIn
    · have member := mem_mapClasses_of_other (f := settings.classAttributes)
        (new_mem_replaceLast styleAttribute (.generate styleAttribute
          ((b.classValue source).styleExpression (e.inlineStyle source))) e.parsed)
        (generate_style_not_class _)
      rw [same] at member
      obtain ⟨s, laid, _⟩ := h.laidOut.bounds member
      exact laid.origin_ne_generated rfl

/-- Printing the attributes of an element whose class names are resolved asks for
nothing but parts of its region. -/
theorem restyle_grounded (h : e.Laid) (has : e.hasClass = true) {a : Attribute}
    (member : a ∈ (e.restyle source settings).attributes) : a.Grounded (·.Inside e.region) := by
  rcases mem_restyle_attributes h has member with read | ⟨c, memberC, rfl⟩ | ⟨code, rfl, copies⟩
  · obtain ⟨s, laid, _⟩ := h.laidOut.bounds read
    exact laid.grounded (h.inside has read laid)
  · obtain ⟨s, laid, _⟩ := h.laidOut.bounds memberC
    exact laid.grounded_renamed _ fun t within => within.trans_inside (h.inside has memberC laid)
  · intro s isIn
    obtain ⟨b, memberB, t, laid, within⟩ := copies s isIn
    exact within.trans_inside (h.inside has memberB laid)

/-- Every attribute of a restyled element has source text or code, and a source text
is as long as the name in it at least. -/
theorem restyle_written (h : e.Laid) {a : Attribute}
    (member : a ∈ (e.restyle source settings).attributes) :
    a.origin ≠ .unwritten ∧ ∀ span name value, a.origin = .written span name value →
      span.start + (name.getD []).length ≤ span.stop := by
  have read {b : Attribute} (memberB : b ∈ e.parsed) :
      b.origin ≠ .unwritten ∧ ∀ span name value, b.origin = .written span name value →
        span.start + (name.getD []).length ≤ span.stop := by
    obtain ⟨s, laid, _⟩ := h.laidOut.bounds memberB
    exact ⟨laid.origin_ne_unwritten, fun span name value => laid.name_le⟩
  cases has : e.hasClass with
  | true =>
    rcases mem_restyle_attributes h has member with memberA | ⟨c, memberC, rfl⟩ | ⟨code, rfl, _⟩
    · exact read memberA
    · exact read (b := c) memberC
    · exact ⟨Attribute.Origin.noConfusion, fun _ _ _ => Attribute.Origin.noConfusion⟩
  | false =>
    rw [restyle_of_not_hasClass h has, h.unchanged] at member
    exact read member

/-- The elements of a style array lie between the braces of the style attribute. -/
theorem classify_array {c : Classification} {code elements : Span}
    (hc : e.classify source = some c) (style : c.style = .array code elements) :
    elements.Within code := by
  rw [style_of_classify hc] at style
  obtain ⟨a, _, style⟩ := mem_of_inlineStyle_array style
  exact (Attribute.inlineStyle_array style).1

end Element

end StyleBinding
