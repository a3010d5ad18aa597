import StyleBinding.Proofs.Expression.Static
import StyleBinding.Proofs.Pass.Identifiers
import StyleBinding.Proofs.Pass.Statements
import StyleBinding.Proofs.Pass.Untouched
import StyleBinding.Proofs.Printing.Choice
import StyleBinding.Proofs.Source.Naming

/-!
# Surrogates in what the pass prints

Whatever a document prints stands in its source or in the code that was put in. The
code of the pass is fixed text, names made of letters and digits, and static class
names as they are decoded. So from a source without surrogates one can come out in no
other way than by an escape in a static class that gives its number; and since class
names hold no blanks, a carriage return can come out in none.
-/

namespace StyleBinding

open Vocabulary

/-! ## Fixed text -/

namespace CodePoint

/-- Whether a code point is one that fixed text is made of: a visible ASCII character, a
space or a line feed. -/
def isOrdinary (c : CodePoint) : Bool :=
  c.isIn fun x => x == '\n' || (0x20 ≤ x.toNat && x.toNat < 0x7F)

theorem not_isOrdinary_of_isSurrogate {c : CodePoint} (half : c.isSurrogate = true) :
    c.isOrdinary = false := by
  cases c with
  | scalar x => cases half
  | surrogate i => rfl

theorem isOrdinary_of_isPlain {c : CodePoint} (h : c.isPlain = true) : c.isOrdinary = true := by
  have ordinary : ('_' :: alphanumerics).all (fun x => isOrdinary (.scalar x)) = true := by
    decide +kernel
  obtain ⟨x, member, rfl⟩ := exists_of_isPlain h
  exact List.all_eq_true.1 ordinary x member

end CodePoint

namespace Text

/-- Whether all code points of a text are ordinary. -/
def IsOrdinary (t : Text) : Prop := ∀ c ∈ t, c.isOrdinary = true

instance (t : Text) : Decidable t.IsOrdinary := inferInstanceAs (Decidable (∀ c ∈ t, _))

variable {t u separator : Text} {parts : List Text}

theorem IsOrdinary.not_mem {c : CodePoint} (h : t.IsOrdinary) (other : c.isOrdinary = false) :
    c ∉ t := by
  intro inside
  rw [h c inside] at other
  cases other

theorem IsOrdinary.append (front : t.IsOrdinary) (back : u.IsOrdinary) : (t ++ u).IsOrdinary :=
  fun c inside => (List.mem_append.1 inside).elim (front c) (back c)

theorem isOrdinary_join (between : separator.IsOrdinary) (each : ∀ p ∈ parts, p.IsOrdinary) :
    (join separator parts).IsOrdinary := by
  induction parts with
  | nil => exact fun c inside => by cases inside
  | cons part parts ih =>
    obtain ⟨first, behind⟩ := List.forall_mem_cons.1 each
    cases parts with
    | nil =>
      rw [join, List.intercalate_singleton]
      exact first
    | cons next more =>
      rw [join, List.intercalate_cons_cons]
      exact (first.append between).append (ih behind)

end Text

/-- A generated name is made of ASCII letters, digits and underscores. -/
theorem BoundImports.isOrdinary_of_mem {settings : Settings} {taken bound : List Text}
    {imports : List ImportDeclaration} {name : Text}
    (member : name ∈ (ofImports settings taken bound imports).bindings) : name.IsOrdinary :=
  fun c inside => CodePoint.isOrdinary_of_isPlain ((isIdentifier_of_mem member).plain c inside)

/-! ## Class names -/

section Values

variable {c : CodePoint} {source text : Text}

/-- The words of a text are made of those of its code points that are no blanks. -/
theorem Text.of_mem_words {t w : Text} (member : w ∈ t.words) (inside : c ∈ w) :
    c ∈ t ∧ c.isBlank = false := by
  replace member := (List.mem_filter.1 member).1
  fun_induction pieces t generalizing w with
  | case1 =>
    rw [List.mem_singleton.1 member] at inside
    cases inside
  | case2 d rest isBlank ih =>
    obtain rfl | member := List.mem_cons.1 member
    · cases inside
    · exact (ih inside member).imp_left (List.mem_cons_of_mem d)
  | case3 d rest noBlank none ih =>
    rw [List.mem_singleton.1 member, List.mem_singleton] at inside
    rw [inside]
    exact ⟨List.mem_cons_self, Bool.eq_false_iff.2 noBlank⟩
  | case4 d rest noBlank piece more split ih =>
    rw [split] at ih
    obtain rfl | member := List.mem_cons.1 member
    · obtain rfl | inside := List.mem_cons.1 inside
      · exact ⟨List.mem_cons_self, Bool.eq_false_iff.2 noBlank⟩
      · exact (ih inside List.mem_cons_self).imp_left (List.mem_cons_of_mem d)
    · exact (ih inside (List.mem_cons_of_mem piece member)).imp_left (List.mem_cons_of_mem d)

/-- Escapes are written in ordinary text. -/
theorem Literal.isOrdinary_encodePoint (c : CodePoint) :
    (encodePoint c).IsOrdinary ∨ encodePoint c = [c] := by
  have digits : ∀ n < 0x20, ("\\u" ++ Text.ofHex 4 n).IsOrdinary := by decide +kernel
  unfold encodePoint
  split
  · rename_i x short
    refine .inl ?_
    unfold shortEscape? at short
    split_ifs at short
    all_goals
      cases short
      decide
  · split
    · exact .inl (digits c.toNat ‹_›)
    · exact .inr rfl

/-- Writing a text as a literal brings nothing in that is not ordinary. -/
theorem Literal.mem_of_mem_encode {t : Text} (inside : c ∈ encode t)
    (other : c.isOrdinary = false) : c ∈ t := by
  have quote : c ≠ .scalar '"' := fun same => by
    rw [same] at other
    cases other
  rw [encode, List.cons_append, List.mem_cons, List.mem_append, List.mem_singleton] at inside
  obtain ⟨x, member, inside⟩ := List.mem_flatMap.1 ((inside.resolve_left quote).resolve_right quote)
  obtain ordinary | same := isOrdinary_encodePoint x
  · exact absurd inside (ordinary.not_mem other)
  · rw [same, List.mem_singleton] at inside
    exact inside ▸ member

theorem Attribute.eq_true_of_classValue {a : Attribute}
    (h : a.classValue source = .dynamic (.literal text)) : text = "true" := by
  unfold classValue at h
  split at h
  · cases h
    rfl
  · cases h
  · cases h
  · split at h <;> cases h

theorem Attribute.eq_true_of_inlineStyle {a : Attribute}
    (h : (a.inlineStyle source).piece? = some (.literal text)) : text = "true" := by
  unfold inlineStyle at h
  split at h
  · cases h
    rfl
  · cases h
  · cases h
  · split at h <;> cases h

/-- A static class holds no blanks. -/
theorem Attribute.not_isBlank_of_static {a : Attribute} {tokens : List Text} {token : Text}
    (h : a.classValue source = .static tokens) (member : token ∈ tokens) (inside : c ∈ token) :
    c.isBlank = false := by
  unfold classValue at h
  split at h
  · cases h
  · cases h
    exact (Text.of_mem_words member inside).2
  · cases h
  · split at h
    · cases h
      exact (Text.of_mem_words member inside).2
    · cases h

/-- A surrogate in a static class stands in the source, or an escape in the code of the
attribute gives its number. -/
theorem Attribute.mem_or_names_of_static {a : Attribute} {tokens : List Text} {token : Text}
    (h : a.classValue source = .static tokens) (member : token ∈ tokens) (inside : c ∈ token)
    (half : c.isSurrogate = true) :
    c ∈ source ∨ ∃ whole inner, a.value = some (.container whole inner) ∧
      (inner.text source).Names c.toNat := by
  have cut {s : Span} (isIn : c ∈ s.text source) : c ∈ source :=
    List.mem_of_mem_drop (List.mem_of_mem_take isIn)
  unfold classValue at h
  split at h
  · cases h
  · cases h
    have inQuotes := List.mem_of_mem_drop
      (List.mem_of_mem_dropLast (Text.of_mem_words member inside).1)
    exact .inl (cut inQuotes)
  · cases h
  · rename_i whole inner hv
    split at h
    · rename_i fixed isFixed
      cases h
      obtain ⟨shape, isShape, isStatic⟩ := Option.bind_eq_some_iff.1 isFixed
      obtain ⟨raw, within, decoded⟩ := Shape.parse_readsFrom isShape fixed isStatic
      obtain inRaw | named := Literal.mem_or_names_of_decodeQuoted decoded
        (Text.of_mem_words member inside).1 half
      · exact .inl (cut (within.subset inRaw))
      · exact .inr ⟨whole, inner, hv, named.mono within⟩
    · cases h

/-- An attribute that was read is copied whole. -/
theorem Attribute.Laid.pieces_eq {a : Attribute} {s : Span} (h : a.Laid s) :
    a.pieces = [.source s] := by
  cases h with
  | spread => rfl
  | bare | valued => exact if_pos rfl

theorem Attribute.Laid.eq_of_literal_renamed {a : Attribute} {s : Span} {name : Text}
    (h : a.Laid s) (isIn : .literal text ∈ (a.renamed name).pieces) : text = name := by
  cases h with
  | spread | bare | valued =>
    simp only [renamed, pieces] at isIn
    split at isIn
    · cases List.mem_singleton.1 isIn
    · simpa using isIn

end Values

/-! ## Literal text of the pass -/

namespace Element

variable {e : Element} {source literal : Text} {settings : Settings} {c : CodePoint}

/-- Whether a code point is in a static class of an element. -/
def InStaticClass (source : Text) (e : Element) (c : CodePoint) : Prop :=
  ∃ tokens, e.classValue? source = some (.static tokens) ∧ ∃ token ∈ tokens, c ∈ token

theorem InStaticClass.not_isBlank (h : e.InStaticClass source c) : c.isBlank = false := by
  obtain ⟨tokens, value, token, member, inside⟩ := h
  obtain ⟨b, _, static⟩ := Option.map_eq_some_iff.1 value
  exact Attribute.not_isBlank_of_static static member inside

theorem inStaticClass_of_styleExpression {v : ClassValue} (value : e.classValue? source = some v)
    (isLiteral : .literal literal ∈ v.styleExpression (e.inlineStyle source))
    (inside : c ∈ literal) (other : c.isOrdinary = false) : e.InStaticClass source c := by
  have fixed {t : Text} (same : literal = t) (ordinary : t.IsOrdinary) : False :=
    ordinary.not_mem other (same ▸ inside)
  obtain separates | ⟨entry, member, isIn⟩ | isPiece := ClassValue.mem_styleExpression isLiteral
  · have ordinary : ∀ p ∈ separators, ∀ t, p = .literal t → t.IsOrdinary := by
      rintro p isSeparator t rfl
      simp only [separators, List.mem_cons, List.not_mem_nil, or_false, CodePiece.literal.injEq]
        at isSeparator
      obtain rfl | rfl | rfl | rfl | rfl | rfl := isSeparator
      all_goals decide
    exact (fixed rfl (ordinary _ separates literal rfl)).elim
  · cases v with
    | static tokens =>
      obtain ⟨token, memberT, rfl⟩ := List.mem_map.1 member
      cases List.mem_singleton.1 isIn
      obtain inside | closing := List.mem_append.1 inside
      · obtain opening | inside := List.mem_append.1 inside
        · exact absurd opening (Text.IsOrdinary.not_mem (by decide) other)
        · exact ⟨tokens, value, token, memberT, Literal.mem_of_mem_encode inside other⟩
      · exact absurd closing (Text.IsOrdinary.not_mem (by decide) other)
    | dynamic expression =>
      obtain rfl := List.mem_singleton.1 member
      simp only [resolutionCode, List.mem_cons, List.not_mem_nil, or_false,
        CodePiece.literal.injEq] at isIn
      obtain same | same | same := isIn
      · exact (fixed same (by decide)).elim
      · obtain ⟨b, _, isB⟩ := Option.map_eq_some_iff.1 value
        exact (fixed (Attribute.eq_true_of_classValue (same ▸ isB)) (by decide)).elim
      · exact (fixed same (by decide)).elim
  · rw [inlineStyle] at isPiece
    cases found : e.attribute? styleAttribute with
    | none =>
      rw [found] at isPiece
      cases isPiece
    | some b =>
      rw [found] at isPiece
      exact (fixed (Attribute.eq_true_of_inlineStyle isPiece) (by decide)).elim

/-- The literal text in the attributes of a restyled element is ordinary but for what it
has of static classes. -/
theorem inStaticClass_of_restyle (h : e.Laid) (has : e.hasClass = true)
    (isLiteral : .literal literal ∈ attributePieces (e.restyle source settings).attributes)
    (inside : c ∈ literal) (other : c.isOrdinary = false) : e.InStaticClass source c := by
  have fixed {t : Text} (same : literal = t) (ordinary : t.IsOrdinary) : False :=
    ordinary.not_mem other (same ▸ inside)
  have read {b : Attribute} (memberB : b ∈ e.parsed) (isIn : .literal literal ∈ b.pieces) :
      False := by
    obtain ⟨s, laid, _⟩ := h.laidOut.bounds memberB
    rw [laid.pieces_eq] at isIn
    cases List.mem_singleton.1 isIn
  have renamed {b : Attribute} (memberB : b ∈ e.parsed)
      (isIn : .literal literal ∈ (b.renamed debugAttribute).pieces) : False := by
    obtain ⟨s, laid, _⟩ := h.laidOut.bounds memberB
    exact fixed (laid.eq_of_literal_renamed isIn) (by decide)
  obtain ⟨a, member, isLiteral⟩ := List.mem_flatMap.1 isLiteral
  obtain same | isLiteral := List.mem_cons.1 isLiteral
  · exact (fixed (CodePiece.literal.inj same) (by decide)).elim
  obtain ⟨b, memberB, value⟩ := h.classValue?_eq has source
  simp only [restyle_attributes, value, h.unchanged] at member
  split at member
  · obtain ⟨member, _⟩ | ⟨_, _, _, isIn⟩ := mem_mapClasses member
    · exact (read member isLiteral).elim
    · cases isIn
  · obtain ⟨member, _⟩ | ⟨k, memberK, isClass, isIn⟩ := mem_mapClasses member
    · obtain rfl | member := mem_replaceLast member
      · simp only [Attribute.pieces, Attribute.generate, List.cons_append, List.mem_cons,
          List.mem_append, List.not_mem_nil, or_false, CodePiece.literal.injEq] at isLiteral
        obtain same | isCode | same := isLiteral
        · exact (fixed same (by decide)).elim
        · exact inStaticClass_of_styleExpression value isCode inside other
        · exact (fixed same (by decide)).elim
      · exact (read member isLiteral).elim
    · obtain rfl | memberK := mem_replaceLast memberK
      · rw [generate_style_not_class] at isClass
        cases isClass
      · obtain rfl | rfl := settings.mem_classAttributes isIn
        · exact (read memberK isLiteral).elim
        · exact (renamed memberK isLiteral).elim

end Element

/-! ## Printed text -/

theorem Text.mem_splice {t : Text} {start stop : Nat} {replaced : List (Span × Text)}
    {c : CodePoint} (inside : c ∈ t.splice start stop replaced) :
    c ∈ t ∨ ∃ r ∈ replaced, c ∈ r.2 := by
  have cut {start stop : Nat} (h : c ∈ t.slice start stop) : c ∈ t :=
    List.mem_of_mem_drop (List.mem_of_mem_take h)
  induction replaced generalizing start with
  | nil => exact .inl (cut inside)
  | cons r rest ih =>
    obtain inside | behind := List.mem_append.1 inside
    · obtain inside | new := List.mem_append.1 inside
      · exact .inl (cut inside)
      · exact .inr ⟨r, List.mem_cons_self, new⟩
    · exact (ih behind).imp_right fun ⟨r', member, new⟩ =>
        ⟨r', List.mem_cons_of_mem r member, new⟩

namespace Document

variable {d : Document} {settings : Settings} {a : Accessor} {c : CodePoint}

/-- Whatever is rendered stands in the source or in literal text that was put in. -/
theorem Renders.mem {s : Span} {text : Text} (h : d.Renders s text) (inside : c ∈ text) :
    c ∈ d.source ∨ ∃ region pieces literal,
      d.Edited region pieces ∧ .literal literal ∈ pieces ∧ c ∈ literal := by
  induction h with
  | @splice s part replaced exactly ordered parts ih =>
    obtain inSource | ⟨⟨region, new⟩, member, inNew⟩ := Text.mem_splice inside
    · exact .inl inSource
    obtain ⟨pieces, edited, outermost, rfl⟩ := (exactly region new).1 member
    obtain ⟨piece, isPiece, inPiece⟩ := List.mem_flatMap.1 inNew
    cases piece with
    | literal text => exact .inr ⟨region, pieces, text, edited, isPiece, inPiece⟩
    | source p => exact ih region pieces edited outermost p isPiece inPiece

theorem expression_isOrdinary (h : ∀ name ∈ a.bindings, name.IsOrdinary) :
    a.expression.IsOrdinary := by
  unfold Accessor.expression
  split
  · refine (Text.IsOrdinary.append ?_ (Text.isOrdinary_join (by decide) h)).append (by decide)
    decide
  · exact h _ (List.head_mem a.nonempty)

theorem preludeStatements_isOrdinary (h : ∀ name ∈ a.bindings, name.IsOrdinary)
    (helpers : Helpers) {statement : Text} (member : statement ∈ preludeStatements a helpers) :
    statement.IsOrdinary := by
  have merges : mergeHelper.IsOrdinary := by decide +kernel
  have resolves : getStyleHelper.IsOrdinary := by decide +kernel
  obtain ⟨_, rfl⟩ | ⟨_, rfl⟩ | rfl := mem_preludeStatements.1 member
  · exact merges
  · exact resolves
  · refine (Text.IsOrdinary.append ?_ (expression_isOrdinary h)).append (by decide)
    decide

/-- The literal text that the pass puts in is ordinary but for what it has of static
classes. -/
theorem Laid.inStaticClass_of_edited (h : d.Laid)
    (bound : (d.boundImports settings).accessor? = some a) {region : Span}
    {pieces : List CodePiece} {literal : Text}
    (edited : (d.transform settings).Edited region pieces) (isLiteral : .literal literal ∈ pieces)
    (inside : c ∈ literal) (other : c.isOrdinary = false) :
    ∃ e ∈ d.elements, e.hasClass = true ∧ e.InStaticClass d.source c := by
  have names : ∀ name ∈ a.bindings, name.IsOrdinary := fun name member =>
    BoundImports.isOrdinary_of_mem (BoundImports.bindings_of_accessor? bound ▸ member)
  cases edited with
  | @gap i name member named =>
    obtain rfl := CodePiece.literal.inj (List.mem_singleton.1 isLiteral)
    have binding : i.binding = some name := by
      rw [transform_of_accessor bound] at member
      rw [← h.givenName_eq member, named]
    have given : name ∈ a.bindings := by
      rw [h.bindings_eq bound]
      exact List.mem_filterMap.2 ⟨i, member, binding⟩
    refine absurd inside (Text.IsOrdinary.not_mem ?_ other)
    exact (Text.IsOrdinary.append (by decide) (names name given)).append (by decide)
  | @element e member changed =>
    rw [transform_elements bound] at member
    obtain ⟨b, memberB, rfl⟩ := List.mem_map.1 member
    have laid := h.forest.laid b memberB
    rw [Element.isChanged_restyle laid] at changed
    exact ⟨b, memberB, changed,
      Element.inStaticClass_of_restyle laid changed isLiteral inside other⟩
  | prelude nonempty =>
    obtain rfl := CodePiece.literal.inj (List.mem_singleton.1 isLiteral)
    have between : Text.IsOrdinary "\n\n" := by decide
    have body : (Text.join "\n\n" (d.transform settings).prelude).IsOrdinary := by
      rw [transform_prelude bound]
      exact Text.isOrdinary_join between fun _ => preludeStatements_isOrdinary names _
    refine absurd inside (Text.IsOrdinary.not_mem ?_ other)
    unfold preludeText
    split
    · exact body.append between
    · exact between.append body

/-- What comes out is ordinary, or stands in the source or in a static class. -/
theorem mem_source_or_inStaticClass {source output : Text} (read : parse source = .ok d)
    (ok : transformText settings source = .ok output) (inside : c ∈ output)
    (other : c.isOrdinary = false) :
    c ∈ source ∨ ∃ e ∈ d.elements, e.hasClass = true ∧ e.InStaticClass source c := by
  have laid := laid_of_parse read
  have isSource := source_of_parse read
  have printed : (d.transform settings).print = .ok output := by
    rw [transformText, read] at ok
    dsimp only at ok
    split at ok
    · cases ok
    · rename_i isOutput
      cases ok
      exact isOutput
  cases bound : (d.boundImports settings).accessor? with
  | none =>
    rw [transform_of_none bound, laid.print_eq_source, isSource] at printed
    obtain rfl := Except.ok.inj printed
    exact .inl inside
  | some a =>
    have renders := (laid.transform_printable settings).renders_of_printStretch printed
    rw [← isSource]
    obtain inSource | ⟨region, pieces, literal, edited, isLiteral, inLiteral⟩ :=
      renders.mem inside
    · rw [transform_source] at inSource
      exact .inl inSource
    · exact .inr (laid.inStaticClass_of_edited bound edited isLiteral inLiteral other)

/-- A blank that comes out and is no space or line feed stands in the source. -/
theorem mem_source_of_blank {source output : Text} (ok : transformText settings source = .ok output)
    (inside : c ∈ output) (other : c.isOrdinary = false) (blank : c.isBlank = true) :
    c ∈ source := by
  cases read : parse source with
  | error r =>
    rw [transformText, read] at ok
    cases ok
  | ok d =>
    obtain inSource | ⟨e, _, _, isStatic⟩ := mem_source_or_inStaticClass read ok inside other
    · exact inSource
    · rw [isStatic.not_isBlank] at blank
      cases blank

/-- A surrogate that comes out of a source without any is in a static class, and an
escape in the code of a class attribute gives its number. -/
theorem transformText_surrogates {source output : Text} (clear : source.Encodable)
    (read : parse source = .ok d) (ok : transformText settings source = .ok output)
    (inside : c ∈ output) (half : c.isSurrogate = true) :
    ∃ e ∈ d.elements, e.InStaticClass source c ∧ ∃ b ∈ e.parsed, ∃ whole inner,
      b.value = some (.container whole inner) ∧ (inner.text source).Names c.toNat := by
  have laid := laid_of_parse read
  obtain inSource | ⟨e, memberE, has, tokens, value, token, memberT, inToken⟩ :=
    mem_source_or_inStaticClass read ok inside (CodePoint.not_isOrdinary_of_isSurrogate half)
  · exact absurd inSource (clear.not_mem half)
  · obtain ⟨b, memberB, same⟩ := (laid.forest.laid e memberE).classValue?_eq has source
    have static : b.classValue source = .static tokens :=
      Option.some.inj (same.symm.trans value)
    obtain inSource | ⟨whole, inner, isValue, named⟩ :=
      Attribute.mem_or_names_of_static static memberT inToken half
    · exact absurd inSource (clear.not_mem half)
    · exact ⟨e, memberE, ⟨tokens, value, token, memberT, inToken⟩, b, memberB, whole, inner,
        isValue, named⟩

/-- A class name that is written as the two halves of a surrogate pair. -/
def pairedSource : Text := "import './a.css';\n<b className=\x7b'\\uD83D\\uDE00'\x7d/>;\n"

theorem transformText_surrogates_paired :
    ∃ d output c, parse pairedSource = .ok d ∧
      transformText (.default []) pairedSource = .ok output ∧ c ∈ output ∧
      c.isSurrogate = true ∧ ∃ e ∈ d.elements, e.InStaticClass pairedSource c ∧
        ∃ b ∈ e.parsed, ∃ whole inner, b.value = some (.container whole inner) ∧
          (inner.text pairedSource).Names c.toNat := by
  have clear : pairedSource.Encodable := Text.encodable_ofString _
  have readable : (parse pairedSource).toOption.isSome = true := by decide +kernel
  have broken : ((transformText (.default []) pairedSource).toOption.any fun output =>
      output.any (·.isSurrogate)) = true := by
    decide +kernel
  obtain ⟨d, isModule⟩ := Option.isSome_iff_exists.1 readable
  obtain ⟨output, isOutput, broken⟩ := (Option.any_eq_true _ _).1 broken
  obtain ⟨c, inside, half⟩ := List.any_eq_true.1 broken
  have read := parse_of_toOption isModule
  have ok := eq_ok_of_toOption isOutput
  exact ⟨d, output, c, read, ok, inside, half,
    transformText_surrogates clear read ok inside half⟩

/-- The two halves come out as two code points, which have no UTF-8 form. -/
theorem pairedSource_unencodable :
    pairedSource.Encodable ∧
      ∃ output, transformText (.default []) pairedSource = .ok output ∧ ¬ output.Encodable := by
  have broken : ((transformText (.default []) pairedSource).toOption.any fun output =>
      output.toUtf8?.isNone) = true := by
    decide +kernel
  obtain ⟨output, isOutput, broken⟩ := (Option.any_eq_true _ _).1 broken
  refine ⟨Text.encodable_ofString _, output, eq_ok_of_toOption isOutput, fun clear => ?_⟩
  have form := Text.toUtf8?_isSome_iff.2 clear
  rw [Option.isNone_iff_eq_none.1 broken] at form
  cases form

end Document

end StyleBinding
