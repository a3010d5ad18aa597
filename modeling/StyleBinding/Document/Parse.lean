import StyleBinding.Document.Basic
import StyleBinding.Document.Lead

/-!
# Reading documents

`Document.parse` finds the import declarations and elements of a module. Code,
template literals, attributes and children contain one another, so they are
read by functions that call one another; each call starts further on in the
source than the one it serves, or serves it at the same place by a fixed order
of the functions. What a function returns says how far it read, so that every
offset in a document is one that reading has reached.

An element is listed before the elements inside it, which makes the order of a
document the order of first code points.
-/

namespace StyleBinding

/-- The declarations and elements found in a stretch of source. -/
structure Found where
  imports : List ImportDeclaration := []
  elements : List Element := []

namespace Found

/-- What was found in two stretches, the first one first. -/
def append (f g : Found) : Found := ⟨f.imports ++ g.imports, f.elements ++ g.elements⟩

instance : Append Found := ⟨append⟩

end Found

namespace Cursor

/-- What was read from a cursor on, and where reading stopped. -/
structure Reading (c : Cursor) (α : Type) where
  value : α
  stop : Cursor
  upto : c.Upto stop

/-- What was read from a cursor on by reading at least one code point. -/
structure Progress (c : Cursor) (α : Type) where
  value : α
  stop : Cursor
  past : c.Past stop

namespace Reading

/-- The reading that also covers a stretch in front, where more was found. -/
def behind {c d : Cursor} (found : Found) (h : c.Upto d) (r : d.Reading Found) :
    c.Reading Found :=
  ⟨found ++ r.value, r.stop, h.trans r.upto⟩

end Reading

namespace Progress

/-- The progress that also covers a stretch in front, where more was found. -/
def behind {α : Type} [Append α] {c d : Cursor} (found : α) (h : c.Upto d)
    (r : d.Progress α) : c.Progress α :=
  ⟨found ++ r.value, r.stop, h.trans_past r.past⟩

/-- The span of what was read. -/
def span {α : Type} {c : Cursor} (r : c.Progress α) : Span := c.spanTo r.stop r.past.upto

end Progress

/-! ## The path of an import declaration -/

/-- Walks over an import clause to the literal behind its keyword `from`. The
word counts as the keyword outside braces, behind some binding, and not as the
new name behind `as`. -/
def findPath (start : Nat) (depth : Int) (seen : Bool) (last : Text) (c : Cursor) :
    Except Refusal { d : Cursor // c.Upto d } :=
  match c.skipTrivia with
  | .error e => .error e
  | .ok ⟨d, hd⟩ =>
    match hr : d.rest with
    | [] => .error (.at .unterminatedImport start)
    | x :: _ =>
      if Lexeme.isQuote x then
        match hs : Lexeme.stringLength? d.rest with
        | none => .error (.at .unterminatedString d.offset)
        | some n =>
          have h := past_advance (Lexeme.stringLength?_bounds hs).1
            (Lexeme.stringLength?_bounds hs).2
          have _shorter := (hd.trans_past h).length_lt
          match findPath start depth true last (d.advance n) with
          | .error e => .error e
          | .ok ⟨e, he⟩ => .ok ⟨e, (hd.trans_past h).upto.trans he⟩
      else if x.is '{' || x.is '}' || x.is '*' || x.is ',' then
        have h := hd.trans_past (past_of_cons hr)
        have _shorter := h.length_lt
        let depth := if x.is '{' then depth + 1 else if x.is '}' then depth - 1 else depth
        match findPath start depth true last (d.advance 1) with
        | .error e => .error e
        | .ok ⟨e, he⟩ => .ok ⟨e, h.upto.trans he⟩
      else if hn : 0 < Lexeme.nameLength d.rest then
        have h := hd.trans_past (past_advance hn (Lexeme.nameLength_le d.rest))
        have _shorter := h.length_lt
        let word := d.rest.take (Lexeme.nameLength d.rest)
        if word = ("from" : Text) ∧ depth = 0 ∧ seen = true ∧ last ≠ ("as" : Text) then
          match (d.advance (Lexeme.nameLength d.rest)).skipTrivia with
          | .error e => .error e
          | .ok ⟨e, he⟩ =>
            if e.rest.head?.any Lexeme.isQuote then .ok ⟨e, h.upto.trans he⟩
            else .error (.at .expectedSpecifier e.offset)
        else
          match findPath start depth true word (d.advance (Lexeme.nameLength d.rest)) with
          | .error e => .error e
          | .ok ⟨e, he⟩ => .ok ⟨e, h.upto.trans he⟩
      else .error (.at (.unexpectedInImport x) d.offset)
termination_by c.rest.length

/-- The end of a declaration: behind a semicolon that follows on the same line,
or where it is. -/
def skipSemicolon (c : Cursor) : { d : Cursor // c.Upto d } :=
  let n := Text.countWhile (fun x => x.is ' ' || x.is '\t') c.rest
  match h : c.rest.drop n with
  | [] => ⟨c, .refl c⟩
  | x :: _ =>
    if x.is ';' then
      ⟨c.advance (n + 1), upto_advance (by
        have := congrArg List.length h
        simp only [List.length_drop, List.length_cons] at this
        omega)⟩
    else ⟨c, .refl c⟩

/-- Moves past one code point of text and all up to the next brace or tag. -/
def skipText (c : Cursor) {x : CodePoint} {t : Text} (hr : c.rest = x :: t) :
    { d : Cursor // c.Past d } :=
  ⟨c.advance (Text.countWhile (fun y => !(y.is '{' || y.is '<')) t + 1),
    past_advance (by omega) (by
      have := Text.countWhile_le (fun y => !(y.is '{' || y.is '<')) t
      rw [hr]
      simp only [List.length_cons]
      omega)⟩

/-- The clause of a declaration that ends with its path. The path of a
declaration of types is not decoded. -/
def readClause (declaration path : Text) (offset : Nat) : Except Refusal (ImportClause × Bool) :=
  if startsTypeImport declaration then .ok ({ source := (path.drop 1).dropLast }, true)
  else
    match ImportClause.parse declaration with
    | .ok clause => .ok (clause, false)
    | .error (.unexpected _) => .error (.at .malformedImport offset)
    | .error (.escape e) => .error (.escapeInImport e)

end Cursor

/-! ## Code, elements and declarations -/

namespace Document

/-- An open bracket, and whether it opens the head of a statement. -/
structure Opened where
  bracket : Bracket
  head : Bool

/-- What is read of the opening tag of an element behind its name. -/
structure Tag where
  attributes : List Attribute := []
  region : Span
  elements : List Element := []
  selfClosing : Bool

open Cursor

mutual

/-- Reads code to the end of the source or, when it is nested, to the brace that
closes it. -/
def readCode (nested : Bool) (opened : List Opened) (prev : Previous) (c : Cursor) :
    Except Refusal (c.Reading Found) :=
  match c.skipTrivia with
  | .error e => .error e
  | .ok ⟨d, hd⟩ =>
    match hr : d.rest with
    | [] =>
      match opened with
      | o :: _ => .error (.at (.expectedBeforeEnd o.bracket.closer) d.offset)
      | [] =>
        if nested then .error (.at (.expectedBeforeEnd '}') d.offset)
        else .ok ⟨{}, d, hd⟩
    | _ :: _ =>
      have next := hd.trans_past (past_of_cons hr)
      have _shorter := next.length_lt
      have _asLong := hd.length_le
      match Lead.read (!nested && opened.isEmpty) prev d hr with
      | .error e => .error e
      | .ok .template =>
        match readTemplate d.offset (d.advance 1) with
        | .error e => .error e
        | .ok r =>
          have _shorter' := (next.trans r.past).length_lt
          match readCode nested opened .value r.stop with
          | .error e => .error e
          | .ok s => .ok (s.behind r.value (next.trans r.past).upto)
      | .ok (.opener b) =>
        let head := b = .round && prev.opensHead
        match readCode nested (⟨b, head⟩ :: opened) (.mark b.opener.toString)
          (d.advance 1) with
        | .error e => .error e
        | .ok s => .ok (s.behind {} next.upto)
      | .ok (.closer b) =>
        match opened with
        | [] =>
          if nested && b = .curly then .ok ⟨{}, d, hd⟩
          else .error (.at (.unexpectedCloser b.closer) d.offset)
        | o :: outer =>
          if o.bracket = b then
            match readCode nested outer (if o.head then .head else .mark b.closer.toString)
              (d.advance 1) with
            | .error e => .error e
            | .ok s => .ok (s.behind {} next.upto)
          else .error (.at (.mismatchedCloser o.bracket.closer b.closer) d.offset)
      | .ok .element =>
        match readElement d with
        | .error e => .error e
        | .ok r =>
          have _shorter' := (hd.trans_past r.past).length_lt
          match readCode nested opened .value r.stop with
          | .error e => .error e
          | .ok s => .ok (s.behind { elements := r.value } (hd.trans_past r.past).upto)
      | .ok (.declaration keyword) =>
        match readDeclaration d keyword with
        | .error e => .error e
        | .ok r =>
          have _shorter' := (hd.trans_past r.past).length_lt
          match readCode nested opened (.mark ";") r.stop with
          | .error e => .error e
          | .ok s => .ok (s.behind r.value (hd.trans_past r.past).upto)
      | .ok (.token stop prev') =>
        have _shorter' := (hd.trans_past stop.2).length_lt
        match readCode nested opened prev' stop.1 with
        | .error e => .error e
        | .ok s => .ok (s.behind {} (hd.trans_past stop.2).upto)
termination_by 8 * c.rest.length + 4

/-- Reads code and the brace that closes it. The value tells also where the
brace stands. -/
def readBlock (c : Cursor) : Except Refusal (c.Progress (Found × { d : Cursor // c.Upto d })) :=
  match readCode true [] .start c with
  | .error e => .error e
  | .ok r =>
    match hr : r.stop.rest with
    | [] => .error (.at (.expectedBeforeEnd '}') r.stop.offset)
    | _ :: _ => .ok ⟨(r.value, ⟨r.stop, r.upto⟩), _, r.upto.trans_past (past_of_cons hr)⟩
termination_by 8 * c.rest.length + 5

/-- Reads a template literal behind its opening mark, which stands at `start`. -/
def readTemplate (start : Nat) (c : Cursor) : Except Refusal (c.Progress Found) :=
  match hr : c.rest with
  | [] => .error (.at .unterminatedTemplate start)
  | x :: t =>
    have next := past_of_cons hr
    have _shorter := next.length_lt
    if x.is '\\' then
      match ht : t with
      | [] => .error (.at .unterminatedTemplate start)
      | _ :: _ =>
        have h : c.Past (c.advance 2) := past_advance (by omega) (by simp [hr])
        have _shorter' := h.length_lt
        match readTemplate start (c.advance 2) with
        | .error e => .error e
        | .ok r => .ok (r.behind {} h.upto)
    else if x.is '\x60' then .ok ⟨{}, _, next⟩
    else if hd : c.rest.startsWith "$\x7b" then
      have h : c.Past (c.advance 2) := past_advance (by omega) (le_length_of_startsWith hd)
      have _shorter' := h.length_lt
      match readBlock (c.advance 2) with
      | .error e => .error e
      | .ok b =>
        have _shorter'' := (h.trans b.past).length_lt
        match readTemplate start b.stop with
        | .error e => .error e
        | .ok r => .ok (r.behind b.value.1 (h.trans b.past).upto)
    else
      match readTemplate start (c.advance 1) with
      | .error e => .error e
      | .ok r => .ok (r.behind {} next.upto)
termination_by 8 * c.rest.length + 0

/-- Reads the import declaration at a cursor whose keyword ends at another. -/
def readDeclaration (c : Cursor) (keyword : { k : Cursor // c.Past k }) :
    Except Refusal (c.Progress Found) :=
  match keyword.1.skipTrivia with
  | .error e => .error e
  | .ok ⟨p, hp⟩ =>
    let path? : Except Refusal { q : Cursor // p.Upto q } :=
      if p.rest.head?.any Lexeme.isQuote then .ok ⟨p, .refl p⟩
      else findPath c.offset 0 false [] p
    match path? with
    | .error e => .error e
    | .ok ⟨q, hq⟩ =>
      match hs : Lexeme.stringLength? q.rest with
      | none => .error (.at .unterminatedString q.offset)
      | some n =>
        have h := past_advance (Lexeme.stringLength?_bounds hs).1
          (Lexeme.stringLength?_bounds hs).2
        have gap := hp.trans hq
        have whole := (keyword.2.trans_upto gap).trans h
        have _shorter := whole.length_lt
        match readImportAttributes (q.advance n) with
        | .error e => .error e
        | .ok a =>
          let stop := a.stop.skipSemicolon
          match readClause (c.rest.take (q.offset + n - c.offset)) (q.rest.take n) c.offset with
          | .error e => .error e
          | .ok (clause, ofTypes) =>
            have past := whole.trans_upto (a.upto.trans stop.2)
            let declaration : ImportDeclaration := {
              span := c.spanTo stop.1 past.upto
              gap := keyword.1.spanTo q gap
              path := q.spanTo (q.advance n) h.upto
              clause
              ofTypes }
            .ok ⟨{ imports := [declaration] } ++ a.value, stop.1, past⟩
termination_by 8 * c.rest.length + 0

/-- Reads the attributes of an import, in braces behind `with` or `assert`, if
there are any. -/
def readImportAttributes (c : Cursor) : Except Refusal (c.Reading Found) :=
  match c.skipTrivia with
  | .error e => .error e
  | .ok ⟨d, hd⟩ =>
    let word := d.rest.take (Lexeme.nameLength d.rest)
    if word = ("with" : Text) ∨ word = ("assert" : Text) then
      have hw := hd.trans (upto_advance (Lexeme.nameLength_le d.rest))
      match (d.advance (Lexeme.nameLength d.rest)).skipTrivia with
      | .error e => .error e
      | .ok ⟨b, hb⟩ =>
        match hr : b.rest with
        | [] => .ok ⟨{}, c, .refl c⟩
        | x :: _ =>
          if x.is '{' then
            have h := (hw.trans hb).trans_past (past_of_cons hr)
            have _shorter := h.length_lt
            match readBlock (b.advance 1) with
            | .error e => .error e
            | .ok r => .ok ⟨r.value.1, r.stop, (h.trans r.past).upto⟩
          else .ok ⟨{}, c, .refl c⟩
    else .ok ⟨{}, c, .refl c⟩
termination_by 8 * c.rest.length + 1

/-- Reads the element at a less-than sign, with its children and closing tag. -/
def readElement (c : Cursor) : Except Refusal (c.Progress (List Element)) :=
  match hr : c.rest with
  | [] => .error (.at .expectedElementName c.offset)
  | _ :: _ =>
    have next := past_of_cons hr
    match (c.advance 1).skipTrivia with
    | .error e => .error e
    | .ok ⟨d, hd⟩ =>
      match hx : d.rest with
      | [] => .error (.at .expectedElementName d.offset)
      | x :: _ =>
        if x.is '>' then
          have h := (next.trans_upto hd).trans (past_of_cons hx)
          have _shorter := h.length_lt
          match readChildren [] c.offset (d.advance 1) with
          | .error e => .error e
          | .ok r =>
            have past := h.trans r.past
            let fragment : Element := {
              name := []
              span := c.spanTo r.stop past.upto
              region := .point d.offset }
            .ok ⟨fragment :: r.value, r.stop, past⟩
        else if hn : 0 < Lexeme.tagNameLength d.rest then
          let name := d.rest.take (Lexeme.tagNameLength d.rest)
          let e := d.advance (Lexeme.tagNameLength d.rest)
          have h := (next.trans_upto hd).trans
            (past_advance hn (Lexeme.tagNameLength_le d.rest))
          have _shorter := h.length_lt
          match readTag name c.offset (.point e.offset) e with
          | .error f => .error f
          | .ok tag =>
            have ht := h.trans tag.past
            let element (stop : Cursor) (past : c.Past stop) : Element := {
              name
              span := c.spanTo stop past.upto
              region := tag.value.region
              selfClosing := tag.value.selfClosing
              parsed := tag.value.attributes }
            if tag.value.selfClosing then
              .ok ⟨element tag.stop ht :: tag.value.elements, tag.stop, ht⟩
            else
              have _shorter' := ht.length_lt
              match readChildren name c.offset tag.stop with
              | .error f => .error f
              | .ok r =>
                have past := ht.trans r.past
                .ok ⟨element r.stop past :: tag.value.elements ++ r.value, r.stop, past⟩
        else .error (.at .expectedElementName d.offset)
termination_by 8 * c.rest.length + 0

/-- Reads attributes and the end of an opening tag. The region given reaches
over the attributes before. -/
def readTag (name : Text) (start : Nat) (region : Span) (c : Cursor) :
    Except Refusal (c.Progress Tag) :=
  match c.skipTrivia with
  | .error e => .error e
  | .ok ⟨d, hd⟩ =>
    match hr : d.rest with
    | [] => .error (.at (.unterminatedElement name) start)
    | x :: _ =>
      if hc : d.rest.startsWith "/>" then
        .ok ⟨{ region, selfClosing := true }, d.advance 2,
          hd.trans_past (past_advance (by omega) (le_length_of_startsWith hc))⟩
      else if x.is '>' then
        .ok ⟨{ region, selfClosing := false }, d.advance 1, hd.trans_past (past_of_cons hr)⟩
      else
        have _asLong := hd.length_le
        match readAttribute d with
        | .error e => .error e
        | .ok a =>
          have h := hd.trans_past a.past
          have _shorter := h.length_lt
          match readTag name start (region.extendTo a.stop.offset) a.stop with
          | .error e => .error e
          | .ok r =>
            .ok ⟨{ r.value with
                attributes := a.value.1 :: r.value.attributes
                elements := a.value.2 ++ r.value.elements },
              r.stop, h.trans r.past⟩
termination_by 8 * c.rest.length + 3

/-- Reads one attribute. The elements in its value come with it. -/
def readAttribute (c : Cursor) : Except Refusal (c.Progress (Attribute × List Element)) :=
  match hr : c.rest with
  | [] => .error (.at .expectedAttributeValue c.offset)
  | x :: _ =>
    if x.is '{' then
      have next := past_of_cons hr
      have _shorter := next.length_lt
      match readBlock (c.advance 1) with
      | .error e => .error e
      | .ok b =>
        have past := next.trans b.past
        .ok ⟨(⟨none, .written (c.spanTo b.stop past.upto) none none⟩, b.value.1.elements),
          b.stop, past⟩
    else if hn : 0 < Lexeme.attributeNameLength c.rest then
      let name := c.rest.take (Lexeme.attributeNameLength c.rest)
      let e := c.advance (Lexeme.attributeNameLength c.rest)
      have he : c.Past e := past_advance hn (Lexeme.attributeNameLength_le c.rest)
      match e.skipTrivia with
      | .error f => .error f
      | .ok ⟨q, hq⟩ =>
        match hx : q.rest with
        | [] => .ok ⟨(⟨some name, .written (c.spanTo e he.upto) (some name) none⟩, []), e, he⟩
        | y :: _ =>
          if y.is '=' then
            have h := (he.trans_upto hq).trans (past_of_cons hx)
            match (q.advance 1).skipTrivia with
            | .error f => .error f
            | .ok ⟨v, hv⟩ =>
              have _shorter := (h.trans_upto hv).length_lt
              match readValue v with
              | .error f => .error f
              | .ok r =>
                have past := (h.trans_upto hv).trans r.past
                .ok ⟨(⟨some name,
                    .written (c.spanTo r.stop past.upto) (some name) (some r.value.1)⟩,
                  r.value.2), r.stop, past⟩
          else .ok ⟨(⟨some name, .written (c.spanTo e he.upto) (some name) none⟩, []), e, he⟩
    else .error (.at (.unexpectedInElement x) c.offset)
termination_by 8 * c.rest.length + 2

/-- Reads the value of an attribute. A quoted value knows no escapes. -/
def readValue (c : Cursor) : Except Refusal (c.Progress (AttributeValue × List Element)) :=
  match hr : c.rest with
  | [] => .error (.at .expectedAttributeValue c.offset)
  | x :: t =>
    if Lexeme.isQuote x then
      match hf : Text.offsetOf? [x] t with
      | none => .error (.at .unterminatedAttributeString c.offset)
      | some n =>
        have past : c.Past (c.advance (n + 2)) := past_advance (by omega) (by
          have := Text.offsetOf?_le hf
          simp only [List.length_singleton] at this
          rw [hr]
          simp only [List.length_cons]
          omega)
        .ok ⟨(.quoted (c.spanTo _ past.upto), []), _, past⟩
    else if x.is '{' then
      have next := past_of_cons hr
      have _shorter := next.length_lt
      match readBlock (c.advance 1) with
      | .error e => .error e
      | .ok b =>
        have past := next.trans b.past
        let inner := (c.advance 1).spanTo b.value.2.1 b.value.2.2
        .ok ⟨(.container (c.spanTo b.stop past.upto) inner, b.value.1.elements), b.stop, past⟩
    else if x.is '<' then
      match readElement c with
      | .error e => .error e
      | .ok r => .ok ⟨(.element r.span, r.value), r.stop, r.past⟩
    else .error (.at .expectedAttributeValue c.offset)
termination_by 8 * c.rest.length + 1

/-- Reads children up to and with the closing tag of the element that starts at
an offset. -/
def readChildren (name : Text) (start : Nat) (c : Cursor) :
    Except Refusal (c.Progress (List Element)) :=
  match hr : c.rest with
  | [] => .error (.at (.unterminatedElement name) start)
  | x :: t =>
    have next := past_of_cons hr
    have _shorter := next.length_lt
    if x.is '{' then
      match readBlock (c.advance 1) with
      | .error e => .error e
      | .ok b =>
        have h := next.trans b.past
        have _shorter' := h.length_lt
        match readChildren name start b.stop with
        | .error e => .error e
        | .ok r => .ok (r.behind b.value.1.elements h.upto)
    else if x.is '<' then
      match (c.advance 1).skipTrivia with
      | .error e => .error e
      | .ok ⟨d, hd⟩ =>
        if d.rest.startsWith "/" then
          match hf : Text.offsetOf? ">" d.rest with
          | none => .error (.at (.unterminatedClosingTag name) c.offset)
          | some n =>
            let found := Text.trim ((d.rest.take n).drop 1)
            if found = name then
              have le : n + 1 ≤ d.rest.length := Text.offsetOf?_le hf
              .ok ⟨[], d.advance (n + 1),
                (next.trans_upto hd).trans (past_advance (by omega) le)⟩
            else .error (.at (.mismatchedClosingTag name found) c.offset)
        else
          match readElement c with
          | .error e => .error e
          | .ok e =>
            have _shorter' := e.past.length_lt
            match readChildren name start e.stop with
            | .error e => .error e
            | .ok r => .ok (r.behind e.value e.past.upto)
    else
      let text := c.skipText hr
      have _shorter' := text.2.length_lt
      match readChildren name start text.1 with
      | .error e => .error e
      | .ok r => .ok (r.behind [] text.2.upto)
termination_by 8 * c.rest.length + 3

end

/-- Where the code of a source starts: behind a first line that names an
interpreter. -/
def codeStart (source : Text) : Cursor :=
  let c := Cursor.ofSource source
  if source.startsWith "#!" then c.advance (Text.countWhile (!·.is '\n') source) else c

/-- Reads a module. -/
def parse (source : Text) : Except Refusal Document :=
  match readCode false [] .start (codeStart source) with
  | .error e => .error e
  | .ok r => .ok { source, imports := r.value.imports, elements := r.value.elements }

end Document

end StyleBinding
