import StyleBinding.Proofs.Pass.Restyled
import StyleBinding.Proofs.Reading.Alignment
import StyleBinding.Proofs.Reading.Values

/-!
# When a style is an array

A style in braces is classified by the text between them. It is an array if and only
if the script, read token by token, opens a square bracket first and has all brackets
closed for the first time behind its last token. That holds where the text is plain. A
comment that follows an atom at once is taken for a part of it, so a style may be an
array to the script and none to the pass.
-/

namespace StyleBinding

open Document Cursor Shape

variable {source : Text} {s : Span}

/-! ## Code in braces -/

namespace Document

/-- A span of a source is read as a block. -/
def IsBlock (source : Text) (s : Span) : Prop :=
  ∃ f, Reads false .block (place source s.start) f (place source s.stop)

/-- The code in the braces of an attribute is read as a block. -/
def HasBlock (source : Text) (a : Attribute) : Prop :=
  ∀ span inner, a.value = some (.container span inner) → IsBlock source inner

/-- The code in the braces of all attributes that a part names is read as a block. -/
def Part.HasBlocks (source : Text) : Part → Prop
  | .tag _ _ attributes _ => ∀ a ∈ attributes, HasBlock source a
  | .attribute a => HasBlock source a
  | .value v => ∀ span inner, v = .container span inner → IsBlock source inner
  | _ => True

/-- All code in the braces of attributes has been read as a block. -/
theorem Reads.hasBlocks {p : Part} {c d : Cursor} {f : Found} (h : Reads false p c f d)
    (on : c.On source) :
    (∀ e ∈ f.elements, ∀ a ∈ e.parsed, HasBlock source a) ∧ p.HasBlocks source := by
  have hasBlock {a : Attribute} (hasValue : HasValue source a) : HasBlock source a :=
    fun span inner container => (hasValue _ container).container
  obtain ⟨found, named⟩ := h.hasValues on
  refine ⟨fun e member a isOne => hasBlock (found e member a isOne), ?_⟩
  match p, h, named with
  | .tag .., _, named => exact fun a isOne => hasBlock (named a isOne)
  | .attribute _, _, named => exact hasBlock named
  | .value _, h, _ =>
    rintro span inner rfl
    exact IsValue.container ⟨c, f, d, on, h⟩
  | .code .., _, _ | .template, _, _ | .declaration _, _, _ | .importAttributes, _, _
  | .element, _, _ | .children _, _, _ => trivial

/-! ## Arrays as the script has them -/

/-- The state behind a square bracket that opens where nested code begins. -/
def Scan.behindBracket (c : Cursor) : Scan := ⟨[⟨.square, false⟩], .mark "[", c.advance 1⟩

/-- The first token of the code in a span opens a square bracket, and its last token
is the first to leave no bracket open. `inner` is what is between these tokens. -/
def IsBracketed (source : Text) (s inner : Span) : Prop :=
  ∃ (c : Cursor) (z : Scan), (place source s.start).Skips c ∧
    c.rest.head? = some (.scalar '[') ∧ (Scan.behindBracket c).Closes z ∧
    z.place.Skips (place source s.stop) ∧
    inner.start = c.offset + 1 ∧ inner.stop + 1 = z.place.offset

theorem place_inside (source : Text) (s : Span) :
    (place source s.start).inside s = .ofSource (s.text source) := by
  rw [Cursor.inside, place, Nat.sub_self]
  rfl

/-- Plain code that begins with a square bracket, as an expression and as a script. -/
theorem tokens?_of_bracket {c : Cursor} {t : Text}
    (plain : Shape.isPlain (s.text source) = true) (skips : (place source s.start).Skips c)
    (hr : c.rest = .scalar '[' :: t) (lt : c.offset < s.stop) :
    (Scan.behindBracket c).Inside source s ∧
      ∃ rest, tokens? (.ofSource (s.text source)) =
          some (.opener .square (spanFrom (c.offset - s.start) 1) :: rest) ∧
        (Scan.behindBracket c).closing? s = Shape.closing? [.square] rest := by
  rw [Shape.isPlain, ← place_inside] at plain
  have above : s.start ≤ c.offset := skips.upto.offset_le
  have start : (place source s.start).On source := rfl
  have on := start.upto skips.upto
  have skipped : ((place source s.start).inside s).skipSeparators.1 = c.inside s :=
    skips.inside (Nat.le_refl _) (Nat.le_of_lt lt) fun x t => arePlain_skipped plain rfl
  obtain ⟨n, token, first, _, behind, tokens⟩ := of_arePlain plain skipped (inside_rest hr lt)
  cases (firstToken?_opener _ .square _).symm.trans first
  rw [inside_advance above] at behind tokens
  refine ⟨⟨on.advance 1, Nat.le_succ_of_le above, behind⟩, ?_⟩
  obtain ⟨rest, isRest, _⟩ := (Option.any_eq_true _ _).1 behind
  rw [isRest] at tokens
  refine ⟨rest, place_inside source s ▸ tokens, ?_⟩
  rw [Scan.closing?_of_ne_nil (List.cons_ne_nil _ _), closingFrom?, Scan.behindBracket, isRest]
  rfl

/-- Where an opening mark is the first token of plain code, the code begins with it. -/
theorem begins_of_tokens? {f : Found} {b : Bracket} {mark : Span} {rest : List Token}
    (reads : Reads false .block (place source s.start) f (place source s.stop))
    (plain : Shape.isPlain (s.text source) = true)
    (tokens : tokens? (.ofSource (s.text source)) = some (.opener b mark :: rest)) :
    ∃ c t, (place source s.start).Skips c ∧ c.rest = .scalar b.opener :: t ∧
      c.offset < s.stop := by
  rw [Shape.isPlain, ← place_inside] at plain
  rw [← place_inside] at tokens
  obtain ⟨c, skips, readsC⟩ := reads.behind_skipped
  have le : c.offset ≤ s.stop := readsC.upto.offset_le
  have length := readsC.upto.offset_add_length
  have skipped : ((place source s.start).inside s).skipSeparators.1 = c.inside s :=
    skips.inside (Nat.le_refl _) le fun x t => arePlain_skipped plain rfl
  rcases Nat.eq_or_lt_of_le le with same | lt
  · rw [tokens?_of_end skipped (inside_rest_of_le (Nat.le_of_eq same.symm))] at tokens
    cases tokens
  · simp only [place] at length
    obtain ⟨x, t, hr⟩ := List.exists_cons_of_length_pos (l := c.rest) (by omega)
    obtain ⟨n, token, first, _, _, tokens'⟩ := of_arePlain plain skipped (inside_rest hr lt)
    obtain ⟨_, _, same⟩ := Option.map_eq_some_iff.1 (tokens'.symm.trans tokens)
    cases same
    exact ⟨c, t, skips, by rw [hr, eq_of_firstToken?_opener first], lt⟩

theorem arrayInner?_eq_some_iff (block : IsBlock source s)
    (plain : Shape.isPlain (s.text source) = true) {inner : Span} :
    (Shape.parse (s.text source)).bind (·.arrayInner?) = some inner ↔
      IsBracketed source s (inner.shift s.start) := by
  rw [parse_array_iff]
  constructor
  · rintro ⟨mark, rest, tokens, starts, closes⟩
    obtain ⟨f, reads⟩ := block
    obtain ⟨c, t, skips, hr, lt⟩ := begins_of_tokens? reads plain tokens
    obtain ⟨inside, rest', tokens', same⟩ := tokens?_of_bracket plain skips hr lt
    cases tokens.symm.trans tokens'
    have behind := reads.behind_opener skips (Lead.at_opener (b := .square) hr)
    obtain ⟨z, g, closesZ, left⟩ := behind.closes (List.cons_ne_nil _ _)
    obtain ⟨k, skipsK, readsK⟩ := left.behind_skipped
    have last : z.place.offset ≤ s.stop := left.upto.offset_le
    obtain ⟨insideZ, sameZ⟩ := Scan.closing?_eq_of_moves closesZ.1 inside last
    rw [← same] at closes
    obtain ⟨rfl, stops⟩ := (Scan.closing?_eq_some_iff closesZ.2 insideZ skipsK readsK.upto rfl).1
      (sameZ.symm.trans closes)
    have above := skips.upto.offset_le
    have first : c.offset + 1 ≤ z.place.offset := (Scan.upto_of_moves closesZ.1).offset_le
    simp only [place, spanFrom] at above starts
    refine ⟨c, z, skips, by rw [hr]; rfl, closesZ, skipsK, ?_, ?_⟩
    · simp only [Span.shift]
      omega
    · simp only [Span.shift]
      omega
  · rintro ⟨c, z, skips, head, closes, ends, starts, stops⟩
    obtain ⟨t, hr⟩ := List.head?_eq_some_iff.1 head
    have first : c.offset + 1 ≤ z.place.offset := (Scan.upto_of_moves closes.1).offset_le
    have last : z.place.offset ≤ s.stop := ends.upto.offset_le
    obtain ⟨inside, rest, tokens, same⟩ := tokens?_of_bracket plain skips hr (by omega)
    obtain ⟨insideZ, sameZ⟩ := Scan.closing?_eq_of_moves closes.1 inside last
    have above := skips.upto.offset_le
    simp only [place, Span.shift] at above starts stops
    refine ⟨_, rest, tokens, ?_, ?_⟩
    · simp only [spanFrom]
      omega
    · rw [← same, sameZ,
        Scan.closing?_eq_some_iff closes.2 insideZ ends (.refl _) rfl]
      exact ⟨rfl, by omega⟩

/-- Plain code that a script reads as a block is an array if and only if one pair of
square brackets stands around it, and what is between them is between the brackets of
the array. -/
theorem isBracketed_iff (block : IsBlock source s)
    (plain : Shape.isPlain (s.text source) = true) {inner : Span} :
    IsBracketed source s inner ↔
      ∃ elements, (Shape.parse (s.text source)).bind (·.arrayInner?) = some elements ∧
        inner = elements.shift s.start := by
  constructor
  · intro bracketed
    have above : s.start ≤ inner.start := by
      obtain ⟨c, _, skips, _, _, _, starts, _⟩ := bracketed
      have := skips.upto.offset_le
      simp only [place] at this
      omega
    obtain ⟨start, stop, le⟩ := inner
    have same : (⟨start, stop, le⟩ : Span) =
        Span.shift s.start ⟨start - s.start, stop - s.start, Nat.sub_le_sub_right le _⟩ := by
      simp only [Span.shift, Span.mk.injEq]
      simp only at above
      omega
    exact ⟨_, (arrayInner?_eq_some_iff block plain).2 (same ▸ bracketed), same⟩
  · rintro ⟨elements, isArray, rfl⟩
    exact (arrayInner?_eq_some_iff block plain).1 isArray

end Document

/-! ## Styles -/

/-- A style in braces is an array if and only if one pair of square brackets stands
around its code, as the script has it. Its elements are what is between them, without
the blanks at the ends.

The code has to be plain, which asks for more than is needed. Two cuts of a code into
tokens give the same brackets as long as no bracket, quote or template mark stands where
they differ. So these are arrays to both, though none is plain:

* `[w / 2 / h]`, where two divisions in a line might be a regular expression, and
  `[f(w / 2), h / 3]`;
* `[/x/]`, a regular expression without brackets and quotes in it;
* `[a/*x*/]`, a comment of that kind behind an atom;
* `[w <h]`, a comparison with a name, and `[<b>hi</b>]`, an element in the list;
* a template in the list that has code in it, with no template mark in that code. -/
theorem Document.classify_array_iff {d : Document} {e : Element} {a : Attribute}
    {span inner : Span} (h : parse source = .ok d) (member : e ∈ d.elements)
    (last : e.attribute? Vocabulary.styleAttribute = some a)
    (container : a.value = some (.container span inner))
    (plain : Shape.isPlain (inner.text source) = true) :
    ∃ c, e.classify source = some c ∧ ∀ code elements, c.style = .array code elements ↔
      code = inner ∧ ∃ s, IsBracketed source inner s ∧ elements = s.strip source := by
  have laid := (laid_of_parse h).forest.laid e member
  obtain ⟨f, stop, reads, rfl⟩ := Reads.of_parse h
  have hasBlock := (reads.hasBlocks (codeStart_on source)).1 e member a
    (laid.unchanged ▸ Element.attribute?_mem last)
  have style : e.inlineStyle source = a.inlineStyle source := by
    rw [Element.inlineStyle, last, Option.map_some, Option.getD_some]
  have classified : e.classify source = some ⟨e.classValue? source, e.inlineStyle source⟩ := by
    rw [Element.classify_eq, last, if_neg]
    simp
  refine ⟨_, classified, fun code elements => ?_⟩
  simp only [isBracketed_iff (hasBlock span inner container) plain, style,
    Attribute.inlineStyle, container]
  cases (Shape.parse (inner.text source)).bind (·.arrayInner?) with
  | none => simp
  | some found => simp [eq_comm]

/-- An element of a source with a style, found by what is said of it. -/
theorem Document.exists_style (source : Text) (p : Attribute → Classification → Bool)
    (h : ((parse source).toOption.any fun d => d.elements.any fun e =>
      (e.attribute? Vocabulary.styleAttribute).any fun a =>
        (e.classify source).any fun c => p a c) = true) :
    ∃ d e a c, parse source = .ok d ∧ e ∈ d.elements ∧
      e.attribute? Vocabulary.styleAttribute = some a ∧ e.classify source = some c ∧
      p a c = true := by
  obtain ⟨d, read, inDocument⟩ := (Option.any_eq_true _ _).1 h
  obtain ⟨e, member, inElement⟩ := List.any_eq_true.1 inDocument
  obtain ⟨a, last, inAttribute⟩ := (Option.any_eq_true _ _).1 inElement
  obtain ⟨c, classified, holds⟩ := (Option.any_eq_true _ _).1 inAttribute
  exact ⟨d, e, a, c, parse_of_toOption read, member, last, classified, holds⟩

/-- A style with a division, a comment, and brackets in a string and in a template. -/
def Document.bracketedSource : Text :=
  "<b style=\x7b [w / 2,\n'//]', /* ] */ e[\x60]\x60]] \x7d/>;\n"

theorem Document.classify_array_iff_bracketed :
    ∃ d e a c, parse bracketedSource = .ok d ∧ e ∈ d.elements ∧
      e.attribute? Vocabulary.styleAttribute = some a ∧
      a.value = some (.container ⟨9, 43, by decide⟩ ⟨10, 42, by decide⟩) ∧
      Shape.isPlain (Span.text ⟨10, 42, by decide⟩ bracketedSource) = true ∧
      e.classify bracketedSource = some c ∧
      c.style = .array ⟨10, 42, by decide⟩ ⟨12, 40, by decide⟩ ∧
      ∃ s, IsBracketed bracketedSource ⟨10, 42, by decide⟩ s ∧
        ⟨12, 40, by decide⟩ = s.strip bracketedSource := by
  obtain ⟨d, e, a, c, read, member, last, classified, holds⟩ :=
    exists_style bracketedSource (fun a c =>
      a.value = some (.container ⟨9, 43, by decide⟩ ⟨10, 42, by decide⟩) ∧
      c.style = .array ⟨10, 42, by decide⟩ ⟨12, 40, by decide⟩) (by decide +kernel)
  obtain ⟨container, isArray⟩ := of_decide_eq_true holds
  have plain : Shape.isPlain (Span.text ⟨10, 42, by decide⟩ bracketedSource) = true := by
    decide +kernel
  obtain ⟨c', classified', iff⟩ := classify_array_iff read member last container plain
  obtain rfl := Option.some.inj (classified.symm.trans classified')
  exact ⟨d, e, a, c, read, member, last, container, plain, classified, isArray,
    ((iff _ _).1 isArray).2⟩

/-- A style with a comment behind an atom. -/
def Document.commentedStyle : Text := "<b style=\x7b[a//]\n,b]\x7d/>"

/-- To the script, one pair of brackets stands around it. -/
theorem Document.commentedStyle_isBracketed :
    IsBracketed commentedStyle ⟨10, 19, by decide⟩ ⟨11, 18, by decide⟩ := by
  have stays (k : Nat) {x : CodePoint} {t : Text} (hr : (place commentedStyle k).rest = x :: t)
      (starts : startsToken x = true) : (place commentedStyle k).Skips (place commentedStyle k) :=
    skips_of_startsToken hr starts
  have comment : (place commentedStyle 12).Skips (place commentedStyle 16) :=
    .comment (n := 3) (by decide +kernel) (.blank rfl (by decide) (stays 16 rfl (by decide)))
  have isName {prev : Previous} (k : Nat)
      (noNumber : Lead.startsNumber (place commentedStyle k).rest = false)
      (one : 1 = Lexeme.nameLength (place commentedStyle k).rest) :
      Lead.Lexed false prev (place commentedStyle k) 1
        (.name ((place commentedStyle k).rest.take 1)) :=
    .word noNumber one Nat.one_pos fun announces => absurd announces.2.1 Bool.false_ne_true
  have isComma {word : Text} :
      Lead.Lexed false (.name word) (place commentedStyle 16) 1 (.mark ",") :=
    .punctuator (c := place commentedStyle 16) (p := ",") rfl rfl (by decide +kernel) rfl
      (fun _ => by decide +kernel) (by decide +kernel)
  have opened : [(⟨.square, false⟩ : Opened)] ≠ [] := List.cons_ne_nil _ _
  have run : Relation.ReflTransGen Scan.Moves (Scan.behindBracket (place commentedStyle 10))
      ⟨[], .mark "]", place commentedStyle 19⟩ :=
    .head (.token opened (stays 11 rfl (by decide)) (isName 11 rfl rfl)) <|
    .head (.token opened comment isComma) <|
    .head (.token opened (stays 17 rfl (by decide)) (isName 17 rfl rfl)) <|
    .single ⟨opened, _, _, stays 18 rfl (by decide), Lead.at_closer (b := .square) rfl, .closer⟩
  exact ⟨place commentedStyle 10, _, stays 10 rfl (by decide), rfl, ⟨run, rfl⟩,
    stays 19 rfl (by decide), rfl, rfl⟩

/-- The script takes the comment for one, and the pass takes it for a part of the atom. -/
theorem Document.commentedStyle_not_array :
    ∃ d e a c, parse commentedStyle = .ok d ∧ e ∈ d.elements ∧
      e.attribute? Vocabulary.styleAttribute = some a ∧
      a.value = some (.container ⟨9, 20, by decide⟩ ⟨10, 19, by decide⟩) ∧
      IsBracketed commentedStyle ⟨10, 19, by decide⟩ ⟨11, 18, by decide⟩ ∧
      e.classify commentedStyle = some c ∧
      c.style = .expression (.source ⟨10, 19, by decide⟩) := by
  obtain ⟨d, e, a, c, read, member, last, classified, holds⟩ :=
    exists_style commentedStyle (fun a c =>
      a.value = some (.container ⟨9, 20, by decide⟩ ⟨10, 19, by decide⟩) ∧
      c.style = .expression (.source ⟨10, 19, by decide⟩)) (by decide +kernel)
  obtain ⟨container, isExpression⟩ := of_decide_eq_true holds
  exact ⟨d, e, a, c, read, member, last, container, commentedStyle_isBracketed, classified,
    isExpression⟩

end StyleBinding
