import StyleBinding.Proofs.Expression.Described
import StyleBinding.Proofs.Pass.Called
import StyleBinding.Proofs.Reading.Values

/-!
# When class names are static

The last class attribute of an element decides. Its class names are static if its value
is quoted, or code that is one literal without a substitution, apart from separators and
comments; they are then the words of what the value spells. Otherwise they are the whole
code of the value, or `true` where there is none.
-/

namespace StyleBinding

open Vocabulary

variable {source : Text}

namespace Attribute

/-- An attribute with a value that says the same wherever it stands: a quoted text, or a
literal without code, none of whose escapes is beyond the last code point. -/
inductive IsFixed (source : Text) (a : Attribute) : Prop
  | quoted {span : Span} : a.value = some (.quoted span) → IsFixed source a
  | literal {span inner : Span} {raw : Text} : a.value = some (.container span inner) →
    Shape.IsLone (inner.text source) raw → ¬ Literal.EscapesBeyond (raw.drop 1).dropLast →
    IsFixed source a

/-- The text that the value of an attribute spells: what stands between the quotes, as it
is written, or what the literal is decoded to. -/
inductive Spells (source : Text) (a : Attribute) : Text → Prop
  | quoted {span : Span} {quote : CodePoint} {raw : Text} : a.value = some (.quoted span) →
    Lexeme.isQuote quote = true → span.text source = quote :: (raw ++ [quote]) →
    Spells source a raw
  | literal {span inner : Span} {raw text : Text} : a.value = some (.container span inner) →
    Shape.IsLone (inner.text source) raw → Literal.decodeQuoted raw = .ok text →
    Spells source a text

/-- The code that the value of an attribute is, where there is one. -/
def code (a : Attribute) : CodePiece :=
  match a.value with
  | none => .literal "true"
  | some value => .source value.code

variable {a : Attribute}

/-- A value that has been read is fixed if and only if it spells a text. -/
theorem isFixed_iff (hasValue : Document.HasValue source a) :
    a.IsFixed source ↔ ∃ text, a.Spells source text := by
  constructor
  · rintro (⟨isQuoted⟩ | ⟨isCode, isLone, noEscape⟩)
    · obtain ⟨quote, raw, isQuote, -, whole⟩ := (hasValue _ isQuoted).quoted
      exact ⟨raw, .quoted isQuoted isQuote whole⟩
    · obtain ⟨text, decoded⟩ := (Literal.decodeQuoted_isOk_iff _).2 noEscape
      exact ⟨text, .literal isCode isLone decoded⟩
  · rintro ⟨text, ⟨isQuoted, -, -⟩ | ⟨isCode, isLone, decoded⟩⟩
    · exact .quoted isQuoted
    · exact .literal isCode isLone ((Literal.decodeQuoted_isOk_iff _).1 ⟨text, decoded⟩)

/-- The class names of a value that spells a text are the words of the text. -/
theorem Spells.classValue_eq {text : Text} (h : a.Spells source text) :
    a.classValue source = .static text.words := by
  cases h with
  | quoted isQuoted _ whole =>
    simp only [Attribute.classValue, isQuoted, whole, List.drop_one, List.tail_cons,
      List.dropLast_concat]
  | literal isCode isLone decoded =>
    have isStatic := Shape.staticText?_eq_some_iff.2 ⟨_, isLone, decoded⟩
    simp only [Attribute.classValue, isCode, isStatic]

/-- The class names of any other value are its whole code. -/
theorem classValue_of_not_isFixed (h : ¬ a.IsFixed source) :
    a.classValue source = .dynamic a.code := by
  rw [Attribute.classValue, code]
  cases value : a.value with
  | none => rfl
  | some v =>
    cases v with
    | quoted span => exact absurd (.quoted value) h
    | element span => rfl
    | container span inner =>
      cases isStatic : (Shape.parse (inner.text source)).bind (·.staticText?) with
      | none => simp only [isStatic]; rfl
      | some text =>
        obtain ⟨raw, isLone, decoded⟩ := Shape.staticText?_eq_some_iff.1 isStatic
        exact absurd (.literal value isLone
          ((Literal.decodeQuoted_isOk_iff _).1 ⟨text, decoded⟩)) h

end Attribute

/-- The last attribute of a name is the one that counts. -/
theorem Element.attribute?_eq_of_last {e : Element} {a : Attribute} {name : Text}
    {before behind : List Attribute} (attributes : e.attributes = before ++ a :: behind)
    (named : a.name = some name) (last : ∀ b ∈ behind, b.name ≠ some name) :
    e.attribute? name = some a := by
  have others : behind.filter (·.isNamed name) = [] :=
    List.filter_eq_nil_iff.2 fun b member isNamed => last b member (Attribute.isNamed_iff.1 isNamed)
  rw [Element.attribute?_eq_getLast?, attributes, List.filter_append,
    List.filter_cons_of_pos (Attribute.isNamed_iff.2 named), others, List.getLast?_concat]

/-- The class names of an element are static if and only if the value of its last class
attribute is fixed. They are then the words of the text that it spells, in order and as
often as they occur, and otherwise the code of the value. -/
theorem Document.classify_class {d : Document} {e : Element} {a : Attribute}
    {before behind : List Attribute} (h : parse source = .ok d) (member : e ∈ d.elements)
    (attributes : e.attributes = before ++ a :: behind) (isClass : a.name = some classAttribute)
    (last : ∀ b ∈ behind, b.name ≠ some classAttribute) :
    ∃ c v, e.classify source = some c ∧ c.classValue = some v ∧
      ((∃ tokens, v = .static tokens) ↔ a.IsFixed source) ∧
      (a.IsFixed source → ∃ text, a.Spells source text) ∧
      (∀ text, a.Spells source text → v = .static text.words) ∧
      (¬ a.IsFixed source → v = .dynamic a.code) := by
  have found := Element.attribute?_eq_of_last attributes isClass last
  have isOne : a ∈ e.attributes := attributes ▸ List.mem_append_right _ List.mem_cons_self
  have isFixed_iff := Attribute.isFixed_iff (hasValue_of_parse h member isOne)
  have classValue : e.classValue? source = some (a.classValue source) := by
    rw [Element.classValue?, found, Option.map_some]
  have classified : e.classify source = some ⟨e.classValue? source, e.inlineStyle source⟩ := by
    rw [Element.classify_eq, classValue, if_neg (by simp)]
  refine ⟨_, a.classValue source, classified, classValue, ⟨?_, ?_⟩, isFixed_iff.1,
    fun text spells => spells.classValue_eq, Attribute.classValue_of_not_isFixed⟩
  · rintro ⟨tokens, isStatic⟩
    by_contra notFixed
    rw [Attribute.classValue_of_not_isFixed notFixed] at isStatic
    cases isStatic
  · intro isFixed
    obtain ⟨text, spells⟩ := isFixed_iff.1 isFixed
    exact ⟨_, spells.classValue_eq⟩

/-- An element with two class attributes, the last of which is a template between comments
with an escape and a repeated word in it. -/
def Document.wordySource : Text :=
  "<b className=\x7bx\x7d className=\x7b /* \x60 */ \x60p q\\x70\np\x60 // z\n \x7d id='y'/>;\n"

theorem Document.classify_class_wordy :
    ∃ d e x a y c, parse wordySource = .ok d ∧ e ∈ d.elements ∧
      e.attributes = [x] ++ a :: [y] ∧ x.name = some classAttribute ∧
      a.name = some classAttribute ∧ (∀ b ∈ [y], b.name ≠ some classAttribute) ∧
      e.classify wordySource = some c ∧
      c.classValue = some (.static ["p", "qp", "p"]) ∧ a.IsFixed wordySource ∧
      ∃ text, a.Spells wordySource text ∧ text.words = [("p" : Text), "qp", "p"] := by
  have found : ((parse wordySource).toOption.any fun d => d.elements.any fun e =>
      (e.classify wordySource).any fun c => decide (e.attributes.map (·.name) =
        [some classAttribute, some classAttribute, some ("id" : Text)] ∧
          c.classValue = some (.static ["p", "qp", "p"]))) = true := by
    decide +kernel
  obtain ⟨d, read, found⟩ := (Option.any_eq_true _ _).1 found
  obtain ⟨e, member, found⟩ := List.any_eq_true.1 found
  obtain ⟨c, classified, found⟩ := (Option.any_eq_true _ _).1 found
  obtain ⟨names, isStatic⟩ := of_decide_eq_true found
  obtain ⟨x, a, y, attributes⟩ :=
    List.length_eq_three.1 ((List.length_map _).symm.trans (congrArg List.length names))
  change e.attributes = [x] ++ a :: [y] at attributes
  rw [attributes] at names
  simp only [List.singleton_append, List.map_cons, List.map_nil, List.cons.injEq, and_true] at names
  obtain ⟨first, second, third⟩ := names
  have last : ∀ b ∈ [y], b.name ≠ some classAttribute := by
    rw [List.forall_mem_singleton, third]
    decide
  have read := parse_of_toOption read
  obtain ⟨c', v, classified', value, iff, exists_spells, words, -⟩ :=
    classify_class read member attributes second last
  obtain rfl := Option.some.inj (classified.symm.trans classified')
  obtain rfl := Option.some.inj (isStatic.symm.trans value)
  have isFixed := iff.1 ⟨_, rfl⟩
  obtain ⟨text, spells⟩ := exists_spells isFixed
  exact ⟨d, e, x, a, y, c, read, member, attributes, first, second, last, classified, isStatic,
    isFixed, text, spells, (ClassValue.static.inj (words text spells)).symm⟩

end StyleBinding
