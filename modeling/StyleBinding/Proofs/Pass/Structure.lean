import Mathlib.Data.List.Forall2
import StyleBinding.Proofs.Pass.Encodable
import StyleBinding.Proofs.Pass.Statements
import StyleBinding.Proofs.Reading.Spliced

/-!
# The structure of generated code

Generated code is user code between brackets and commas. Where every stretch that is
copied is, as it is printed, code on its own, the brackets and commas are those that
the pass puts in: what opens first is closed last, every entry of a class is one slot,
and the slots of the copied code stand where it was put
(`Document.transform_structured`). What is copied may be no such code: a comment behind
the elements of a style array loses the line break that ends it. The names of classes
are written as literals, each of which is one token wherever it stands.
-/

namespace StyleBinding

open Vocabulary

/-! ## Generated code as text -/

section Texts

variable {part : Span → Text} {items : List (List CodePiece)} {slots : List (List Bool)}

theorem joinPieces_append (code more : List CodePiece) :
    joinPieces part (code ++ more) = joinPieces part code ++ joinPieces part more :=
  List.flatMap_append

theorem joinPieces_commaSeparated (items : List (List CodePiece)) :
    joinPieces part (commaSeparated items) = Text.join ", " (items.map (joinPieces part)) := by
  induction items with
  | nil => rfl
  | cons item rest ih =>
    cases rest with
    | nil => rw [commaSeparated, List.intercalate_singleton, List.map_singleton, Text.join,
        List.intercalate_singleton]
    | cons next more =>
      rw [commaSeparated, List.intercalate_cons_cons, ← commaSeparated, joinPieces_append,
        joinPieces_append, ih]
      simp only [List.map_cons, Text.join, List.intercalate_cons_cons]
      rfl

theorem joinPieces_enclosed (opening closing : Text) (items : List (List CodePiece)) :
    joinPieces part (enclosed opening items closing) =
      opening ++ Text.join ", " (items.map (joinPieces part)) ++ closing := by
  rw [enclosed, joinPieces_append, ← joinPieces_commaSeparated]
  simp [joinPieces, CodePiece.text]

theorem arrayCode_encloses (fits : List.Forall₂ Text.Fits (items.map (joinPieces part)) slots)
    (nonempty : items ≠ []) :
    (joinPieces part (arrayCode items)).Encloses "[" slots.flatten := by
  have opens : Text.Opens "[" .square := .bracket .square (by decide)
  rw [arrayCode, joinPieces_enclosed]
  exact opens.encloses (.join fits (by simpa using nonempty))

theorem assignCode_encloses (fits : List.Forall₂ Text.Fits (items.map (joinPieces part)) slots) :
    (joinPieces part (assignCode items)).Encloses "Object.assign(" (true :: slots.flatten) := by
  have opens : Text.Opens "\x7b" .curly := .bracket .curly (by decide)
  have object : Text.Fits "\x7b\x7d" [true] := opens.fits .nil
  rw [assignCode, joinPieces_enclosed]
  exact Text.opens_assign.encloses (.join (.cons object fits) (List.cons_ne_nil _ _))

theorem opens_lookup : Text.Opens (styleSheetName ++ "[") .square :=
  @Text.Opens.word styleSheetName .square (by decide) (by decide)

theorem opens_resolution : Text.Opens (getStyleName ++ "(") .round :=
  @Text.Opens.word getStyleName .round (by decide) (by decide)

end Texts

/-- How the piece is cut into slots, where stretches of the source are cut as `slots`
says. -/
def CodePiece.slots (slots : Span → List Bool) : CodePiece → List Bool
  | .literal _ => [true]
  | .source span => slots span

/-- The brackets and commas of a style expression as it is printed. Class names that
are known are looked up one by one, others are the arguments of a call. The entries come
first, and the slots of the inline style behind them; without a style the one entry
there is stands alone. -/
structure ClassValue.Structured (value : ClassValue) (style : InlineStyle) (part : Span → Text)
    (slots : Span → List Bool) : Prop where
  lookups : ∀ tokens, value = .static tokens → ∀ name ∈ tokens,
    (lookupCode name).Encloses (styleSheetName ++ "[") [true]
  resolution : ∀ code, value = .dynamic code →
    (joinPieces part (resolutionCode code)).Encloses (getStyleName ++ "(") (code.slots slots)
  array : ∀ code elements, style = .array code elements →
    (joinPieces part (value.styleExpression style)).Encloses "["
      (List.replicate value.entries.length true ++
        if elements.isEmpty then [] else slots elements)
  assigned : ∀ code, style = .expression code →
    (joinPieces part (value.styleExpression style)).Encloses "Object.assign("
      (List.replicate (value.entries.length + 1) true ++ code.slots slots)
  bare : style = .absent → value.entries.length ≠ 1 →
    (joinPieces part (value.styleExpression style)).Encloses "Object.assign("
      (List.replicate (value.entries.length + 1) true)

section Fits

variable {part : Span → Text} {slots : Span → List Bool} {value : ClassValue} {style : InlineStyle}

theorem lookupCode_encloses (name : Text) :
    (lookupCode name).Encloses (styleSheetName ++ "[") [true] :=
  opens_lookup.encloses (Text.fits_encode name)

/-- The literal in the brackets of a lookup is one string from its first quote up to its
last one, wherever the lookup stands and whatever is read in front of it. It means the
name that is looked up. -/
theorem lookupCode_literal (name : Text) : ∃ body : Text,
    let literal := .scalar '"' :: (body ++ [CodePoint.scalar '"'])
    lookupCode name = ("_styleSheet[" : Text) ++ literal ++ ("]" : Text) ∧
    Literal.decodeQuoted literal = .ok name ∧
    ∀ (before behind : Text) (topLevel : Bool) (prev : Previous),
      let source := before ++ lookupCode name ++ behind
      let start := before.length + ("_styleSheet[" : Text).length
      Lexeme.stringLength? (source.drop start) = some literal.length ∧
      ∃ past, Lead.At topLevel prev (Cursor.place source start)
        (.token ⟨Cursor.place source (start + literal.length), past⟩ .value) := by
  let body : Text := name.flatMap Literal.encodePoint
  refine ⟨body, rfl, Literal.decodeQuoted_encode name, ?_⟩
  intro before behind topLevel prev source start
  have rest : source.drop start = Literal.encode name ++ (("]" : Text) ++ behind) := by
    have split : source = before ++ ("_styleSheet[" : Text) ++
        (Literal.encode name ++ (("]" : Text) ++ behind)) := by
      simp only [source, lookupCode, List.append_assoc]
      rfl
    have length : start = (before ++ ("_styleSheet[" : Text)).length :=
      List.length_append.symm
    rw [split, length, List.drop_left]
  have isString : Lexeme.stringLength? (source.drop start) = some (Literal.encode name).length :=
    rest ▸ Lexeme.stringLength?_encode name _
  refine ⟨isString, ?_⟩
  have lexed : Lead.Lexed topLevel prev (Cursor.place source start)
    (Literal.encode name).length .value := .string isString
  have read := lexed.at_token
  rw [Cursor.advance_place] at read
  exact read

theorem joinPieces_resolutionCode (code : CodePiece) :
    joinPieces part (resolutionCode code) =
      getStyleName ++ "(" ++ code.text part ++ [CodePoint.scalar ')'] := by
  simp only [joinPieces, resolutionCode, List.flatMap_cons, List.flatMap_nil, CodePiece.text,
    List.append_nil, List.append_assoc]
  rfl

/-- The entries of class names are one slot each. -/
theorem fits_entries
    (fits : ∀ code, value = .dynamic code → (code.text part).Fits (code.slots slots)) :
    List.Forall₂ Text.Fits (value.entries.map (joinPieces part))
      (List.replicate value.entries.length [true]) := by
  have each : ∀ item ∈ value.entries, (joinPieces part item).Fits [true] := by
    intro item member
    cases value with
    | static tokens =>
      obtain ⟨name, _, rfl⟩ := List.mem_map.1 member
      have lookup : (lookupCode name).Fits [true] := opens_lookup.fits (Text.fits_encode name)
      rwa [joinPieces, List.flatMap_singleton]
    | dynamic code =>
      rw [List.mem_singleton.1 member, joinPieces_resolutionCode]
      exact opens_resolution.fits (fits code rfl)
  generalize value.entries = items at each
  induction items with
  | nil => exact .nil
  | cons item rest ih =>
    obtain ⟨first, behind⟩ := List.forall_mem_cons.1 each
    exact .cons first (ih behind)

/-- The inline style stands behind the entries. -/
theorem fits_entries_append {code : CodePiece} {ss : List Bool}
    (fits : ∀ code, value = .dynamic code → (code.text part).Fits (code.slots slots))
    (last : (code.text part).Fits ss) :
    List.Forall₂ Text.Fits ((value.entries ++ [[code]]).map (joinPieces part))
      (List.replicate value.entries.length [true] ++ [ss]) := by
  rw [List.map_append]
  refine List.rel_append (fits_entries fits) (.cons ?_ .nil)
  rwa [joinPieces, List.flatMap_singleton]

theorem ClassValue.entries_ne_nil (nonempty : value.isEmpty = false) : value.entries ≠ [] := by
  cases value with
  | static tokens => simpa [ClassValue.entries, ClassValue.isEmpty] using nonempty
  | dynamic code => exact List.cons_ne_nil _ _

/-- Where the copied code fits, the style expression is structured. -/
theorem ClassValue.structured (nonempty : value.isEmpty = false)
    (fits : ∀ code, value = .dynamic code → (code.text part).Fits (code.slots slots))
    (assigned : ∀ code, style = .expression code → (code.text part).Fits (code.slots slots))
    (array : ∀ code elements, style = .array code elements → elements.isEmpty = false →
      (part elements).Fits (slots elements)) :
    value.Structured style part slots where
  lookups _ _ name _ := lookupCode_encloses name
  resolution code isDynamic := by
    rw [joinPieces_resolutionCode]
    exact opens_resolution.encloses (fits code isDynamic)
  array code elements isArray := by
    subst isArray
    have entries := fits_entries fits
    rw [ClassValue.styleExpression]
    cases isEmpty : elements.isEmpty with
    | true =>
      have encloses := arrayCode_encloses entries (entries_ne_nil nonempty)
      rwa [List.flatten_replicate_singleton, ← List.append_nil value.entries,
        ← List.append_nil (List.replicate ..), List.length_append] at encloses
    | false =>
      have last : (CodePiece.text part (.source elements)).Fits (slots elements) :=
        array code elements rfl isEmpty
      have encloses := arrayCode_encloses (fits_entries_append fits last)
        (List.append_ne_nil_of_left_ne_nil (entries_ne_nil nonempty) _)
      rwa [List.flatten_append, List.flatten_replicate_singleton, List.flatten_singleton]
        at encloses
  assigned code isExpression := by
    subst isExpression
    have encloses := assignCode_encloses (fits_entries_append fits (assigned code rfl))
    rwa [List.flatten_append, List.flatten_replicate_singleton, List.flatten_singleton] at encloses
  bare isAbsent several := by
    subst isAbsent
    have encloses := assignCode_encloses (fits_entries fits)
    rw [List.flatten_replicate_singleton] at encloses
    rw [ClassValue.styleExpression]
    split
    · rename_i only
      exact absurd (congrArg List.length only) several
    · exact encloses

theorem ClassValue.mem_styleExpression_of_expression (value : ClassValue) (code : CodePiece) :
    code ∈ value.styleExpression (.expression code) :=
  mem_enclosed_of_mem (List.mem_cons_of_mem _ (List.mem_append_right _
    (List.mem_singleton_self [code]))) (List.mem_singleton_self code)

theorem ClassValue.mem_styleExpression_of_array (value : ClassValue) (code : Span)
    {elements : Span} (nonempty : elements.isEmpty = false) :
    .source elements ∈ value.styleExpression (.array code elements) := by
  rw [ClassValue.styleExpression, nonempty, if_neg Bool.false_ne_true]
  exact mem_enclosed_of_mem (List.mem_append_right _ (List.mem_singleton_self _))
    (List.mem_singleton_self _)

end Fits

/-- What an attribute without a value stands for can stand anywhere. -/
theorem fits_impliedValue : Text.Fits "true" [true] :=
  (Text.isCode_of_isWord (by decide)).fits

namespace Element

variable {e : Element} {source text : Text}

theorem classValue?_of_classify {c : Classification} (hc : e.classify source = some c) :
    c.classValue = e.classValue? source := by
  rw [classify_eq] at hc
  split at hc
  · cases hc
  · cases hc
    rfl

theorem eq_true_of_inlineStyle (h : e.inlineStyle source = .expression (.literal text)) :
    text = "true" := by
  rw [inlineStyle] at h
  cases found : e.attribute? styleAttribute with
  | none =>
    rw [found] at h
    cases h
  | some a =>
    rw [found, Option.map_some, Option.getD_some] at h
    exact a.eq_true_of_inlineStyle (by rw [h]; rfl)

/-- Where the copied stretches are code on their own, the style expression of an element
is structured. -/
theorem structured_of_isCode {part : Span → Text} {slots : Span → List Bool} {value : ClassValue}
    (classes : e.classValue? source = some value) (nonempty : value.isEmpty = false)
    (copied : ∀ s, .source s ∈ value.styleExpression (e.inlineStyle source) →
      (part s).IsCode (slots s)) :
    value.Structured (e.inlineStyle source) part slots := by
  refine ClassValue.structured nonempty ?_ ?_ ?_
  · rintro code rfl
    cases code with
    | literal text =>
      obtain ⟨b, _, isDynamic⟩ := Option.map_eq_some_iff.1 classes
      rw [b.eq_true_of_classValue isDynamic]
      exact fits_impliedValue
    | source s =>
      refine (copied s (ClassValue.mem_styleExpression_of_mem (List.mem_singleton_self _) ?_)).fits
      exact List.mem_cons_of_mem _ List.mem_cons_self
  · intro code isExpression
    cases code with
    | literal text =>
      rw [eq_true_of_inlineStyle isExpression]
      exact fits_impliedValue
    | source s =>
      rw [isExpression] at copied
      exact (copied s (value.mem_styleExpression_of_expression _)).fits
  · intro code elements isArray isEmpty
    rw [isArray] at copied
    exact (copied elements (value.mem_styleExpression_of_array code isEmpty)).fits

end Element

/-- Generated code as it is printed. -/
def Document.printCode (d : Document) (code : List CodePiece) : Except PrintError Text :=
  printAll (CodePiece.print d.printStretch) code

namespace Document

variable {d : Document} {settings : Settings} {a : Accessor} {source : Text} {e : Element}
  {c : Classification} {value : ClassValue}

/-- Generated code prints as its pieces do. -/
theorem printCode_eq_join {part : Span → Text} (printed : ∀ s, d.printStretch s = .ok (part s))
    (code : List CodePiece) : d.printCode code = .ok (joinPieces part code) := by
  refine printAll_eq_ok fun piece _ => ?_
  cases piece with
  | literal text => rfl
  | source s => exact printed s

/-- The style attribute of an element with class names is the generated code. Where every
stretch that the code copies is, as it is printed, code on its own, the code keeps its
brackets and commas: the slots of each stretch are where the pass puts it. -/
theorem transform_structured (h : parse source = .ok d)
    (bound : (d.boundImports settings).accessor? = some a) (member : e ∈ d.elements)
    (classified : e.classify source = some c) (resolvable : c.resolvable = some value) :
    ∃ part : Span → Text,
      (∀ s, (d.transform settings).printStretch s = .ok (part s)) ∧
      (d.transform settings).printCode (value.styleExpression c.style) =
        .ok (joinPieces part (value.styleExpression c.style)) ∧
      (∃ f ∈ (d.transform settings).elements, f.span = e.span ∧
        .generate styleAttribute (value.styleExpression c.style) ∈ f.attributes) ∧
      ∀ slots : Span → List Bool,
        (∀ s, .source s ∈ value.styleExpression c.style → (part s).IsCode (slots s)) →
        value.Structured c.style part slots := by
  have stretches (s : Span) :=
    printStretch_ok ((laid_of_parse h).transform_grounded settings) s
  choose part printed using stretches
  obtain rfl := source_of_parse h
  obtain ⟨classes, nonempty⟩ := Option.filter_eq_some_iff.1 resolvable
  have nonempty : value.isEmpty = false := by simpa using nonempty
  rw [Element.classValue?_of_classify classified] at classes
  rw [Element.style_of_classify classified]
  refine ⟨part, printed, printCode_eq_join printed _, ⟨e.restyle d.source settings, ?_,
    Element.restyle_span .., ?_⟩, fun slots => Element.structured_of_isCode classes nonempty⟩
  · rw [transform_elements bound]
    exact List.mem_map_of_mem member
  · rw [Element.restyle_attributes, classes]
    simp only [nonempty, if_neg Bool.false_ne_true]
    exact mem_mapClasses_of_other (new_mem_replaceLast ..) (generate_style_not_class _)

/-- A style array of one element, and class names that are known at run time. -/
def slottedSource : Text := "import './a.css';\n<b style=\x7b[a]\x7d className=\x7bx\x7d/>;\n"

/-- Whether every stretch that generated code copies is printed as one word. -/
def copiesWords (d : Document) (code : List CodePiece) : Bool :=
  code.all fun
    | .literal _ => true
    | .source s => (d.printStretch s).toOption.any (·.isWord)

theorem transform_structured_slotted :
    ∃ d a e c value text, parse slottedSource = .ok d ∧
      (d.boundImports (.default [])).accessor? = some a ∧ e ∈ d.elements ∧
      e.classify slottedSource = some c ∧ c.resolvable = some value ∧
      (d.transform (.default [])).printCode (value.styleExpression c.style) = .ok text ∧
      text.Encloses "[" [true, true] := by
  have evaluated : ((parse slottedSource).toOption.any fun d =>
      ((d.boundImports (.default [])).accessor?.isSome && d.elements.any fun e =>
        (e.classify slottedSource).any fun c => c.resolvable.any fun value =>
          value.entries.length == 1 && (c.style.elements?.any fun s => !s.isEmpty) &&
            (d.transform (.default [])).copiesWords (value.styleExpression c.style))) = true := by
    decide +kernel
  obtain ⟨d, isModule, evaluated⟩ := (Option.any_eq_true _ _).1 evaluated
  obtain ⟨isBound, evaluated⟩ := Bool.and_eq_true_iff.1 evaluated
  obtain ⟨e, member, evaluated⟩ := List.any_eq_true.1 evaluated
  obtain ⟨c, classified, evaluated⟩ := (Option.any_eq_true _ _).1 evaluated
  obtain ⟨value, resolvable, evaluated⟩ := (Option.any_eq_true _ _).1 evaluated
  obtain ⟨shape, words⟩ := Bool.and_eq_true_iff.1 evaluated
  obtain ⟨single, isArray⟩ := Bool.and_eq_true_iff.1 shape
  obtain ⟨a, bound⟩ := Option.isSome_iff_exists.1 isBound
  have read := parse_of_toOption isModule
  obtain ⟨part, stretches, printed, _, structured⟩ :=
    transform_structured read bound member classified resolvable
  have copied (s : Span) (isIn : .source s ∈ value.styleExpression c.style) :
      (part s).IsCode [true] := by
    have isWord : (((d.transform (.default [])).printStretch s).toOption.any (·.isWord)) = true :=
      List.all_eq_true.1 words _ isIn
    rw [stretches] at isWord
    exact Text.isCode_of_isWord isWord
  have structured := structured (fun _ => [true]) copied
  refine ⟨d, a, e, c, value, _, read, bound, member, classified, resolvable, printed, ?_⟩
  cases style : c.style with
  | absent | expression =>
    rw [style] at isArray
    cases isArray
  | array code elements =>
    rw [style] at isArray structured
    have isEmpty : elements.isEmpty = false := by simpa [InlineStyle.elements?] using isArray
    have encloses := structured.array code elements rfl
    rwa [isEmpty, eq_of_beq single] at encloses

/-- Without its line break the comment behind the elements of a style array covers the
closing bracket, so the printed code closes no bracket. -/
theorem commentedSource_not_enclosed :
    ∃ d e c value text, parse commentedSource = .ok d ∧ e ∈ d.elements ∧
      e.classify commentedSource = some c ∧ c.resolvable = some value ∧
      (d.transform (.default [])).printCode (value.styleExpression c.style) = .ok text ∧
      ∀ opening slots, ¬ text.Encloses opening slots := by
  have bad : ((parse commentedSource).toOption.any fun d => d.elements.any fun e =>
      (e.classify commentedSource).any fun c => c.resolvable.any fun value =>
        ((d.transform (.default [])).printCode (value.styleExpression c.style)).toOption.any
          fun text => (readBlock (.ofSource (text ++ "\x7d"))).toOption.isNone) = true := by
    decide +kernel
  obtain ⟨d, read, bad⟩ := (Option.any_eq_true _ _).1 bad
  obtain ⟨e, member, bad⟩ := List.any_eq_true.1 bad
  obtain ⟨c, classified, bad⟩ := (Option.any_eq_true _ _).1 bad
  obtain ⟨value, resolvable, bad⟩ := (Option.any_eq_true _ _).1 bad
  obtain ⟨text, printed, bad⟩ := (Option.any_eq_true _ _).1 bad
  refine ⟨d, e, c, value, text, parse_of_toOption read, member, classified, resolvable,
    eq_ok_of_toOption printed, fun opening slots encloses => ?_⟩
  obtain ⟨f, reads⟩ := encloses.accepts
  obtain ⟨_, _, ok⟩ := readBlock_of_accepts reads.accepts reads.endsAt
  rw [ok] at bad
  cases bad

end Document

end StyleBinding
