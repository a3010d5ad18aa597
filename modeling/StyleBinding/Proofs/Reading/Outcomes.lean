import StyleBinding.Proofs.Reading.Completeness

/-!
# Outcomes of readers

What a reader finds and where it stops, or why it refuses, without what it proves about the
places in between. Outcomes of readers that start at different sources can be compared. Each
theorem here says how the outcome of a reader comes from those of the readers it calls, in
the way it goes on at one kind of place; refusals come along.
-/

namespace StyleBinding

open Cursor

theorem Cursor.spanTo_eq {c d : Cursor} (h : c.Upto d) :
    c.spanTo d h = (Span.point c.offset).extendTo d.offset := by
  simp only [spanTo, Span.point, Span.extendTo, Span.mk.injEq, true_and]
  exact (Nat.max_eq_right h.offset_le).symm

namespace Document

/-- What is found in code from a place on, and where it ends. -/
def codeOutcome (nested : Bool) (opened : List Opened) (prev : Previous) (c : Cursor) :
    Except Refusal (Found × Cursor) :=
  (readCode nested opened prev c).map fun r => (r.value, r.stop)

/-- What is found in nested code from a place on, and where the brace stands that closes
it. -/
def blockOutcome (c : Cursor) : Except Refusal (Found × Cursor) :=
  (codeOutcome true [] .start c).bind fun r =>
    if r.2.rest.isEmpty then .error (.at (.expectedBeforeEnd '}') r.2.offset) else .ok r

def templateOutcome (start : Nat) (c : Cursor) : Except Refusal (Found × Cursor) :=
  (readTemplate start c).map fun r => (r.value, r.stop)

def elementOutcome (c : Cursor) : Except Refusal (List Element × Cursor) :=
  (readElement c).map fun r => (r.value, r.stop)

def tagOutcome (name : Text) (start : Nat) (region : Span) (c : Cursor) :
    Except Refusal (Tag × Cursor) :=
  (readTag name start region c).map fun r => (r.value, r.stop)

def attributeOutcome (c : Cursor) : Except Refusal ((Attribute × List Element) × Cursor) :=
  (readAttribute c).map fun r => (r.value, r.stop)

def childrenOutcome (name : Text) (start : Nat) (c : Cursor) :
    Except Refusal (List Element × Cursor) :=
  (readChildren name start c).map fun r => (r.value, r.stop)

/-! ## Code -/

/-- How reading code goes on behind what a place begins. -/
def outcomeBehind (nested : Bool) (opened : List Opened) (prev : Previous) (d : Cursor) :
    Lead d → Except Refusal (Found × Cursor)
  | .template =>
    (templateOutcome d.offset (d.advance 1)).bind fun r =>
      (codeOutcome nested opened .value r.2).map fun s => (r.1 ++ s.1, s.2)
  | .opener b =>
    codeOutcome nested (⟨b, b = .round && prev.opensHead⟩ :: opened) (.mark b.opener.toString)
      (d.advance 1)
  | .closer b =>
    match opened with
    | [] =>
      if nested && b = .curly then .ok ({}, d)
      else .error (.at (.unexpectedCloser b.closer) d.offset)
    | o :: outer =>
      if o.bracket = b then
        codeOutcome nested outer (if o.head then .head else .mark b.closer.toString) (d.advance 1)
      else .error (.at (.mismatchedCloser o.bracket.closer b.closer) d.offset)
  | .element =>
    (elementOutcome d).bind fun r =>
      (codeOutcome nested opened .value r.2).map fun s => ({ elements := r.1 } ++ s.1, s.2)
  | .declaration keyword =>
    ((readDeclaration d keyword).map fun r => (r.value, r.stop)).bind fun r =>
      (codeOutcome nested opened (.mark ";") r.2).map fun s => (r.1 ++ s.1, s.2)
  | .token stop prev' => codeOutcome nested opened prev' stop.1

theorem parse_eq (source : Text) :
    parse source = (codeOutcome false [] .start (codeStart source)).map fun r =>
      { source, imports := r.1.imports, elements := r.1.elements } := by
  rw [parse, codeOutcome]
  cases readCode false [] .start (codeStart source) <;> rfl

section Code

variable {nested : Bool} {opened : List Opened} {prev : Previous} {c d : Cursor}

theorem codeOutcome_eq (skips : c.Skips d) {lead : Lead d}
    (begins : Lead.At (!nested && opened.isEmpty) prev d lead) :
    codeOutcome nested opened prev c = outcomeBehind nested opened prev d lead := by
  obtain ⟨hd, skips⟩ := skips
  obtain ⟨x, t, hr, begins⟩ := begins
  rw [codeOutcome, readCode]
  simp only [skips]
  split
  · rename_i atEnd
    rw [hr] at atEnd
    cases atEnd
  · rename_i hr'
    obtain ⟨rfl, rfl⟩ := List.cons.inj (hr.symm.trans hr')
    simp only [begins]
    cases lead with
    | template =>
      simp only [outcomeBehind, templateOutcome]
      cases readTemplate d.offset (d.advance 1) with
      | error e => rfl
      | ok r =>
        simp only [Except.map, Except.bind, codeOutcome]
        cases readCode nested opened .value r.stop <;> rfl
    | opener b =>
      simp only [outcomeBehind, codeOutcome]
      cases readCode nested (⟨b, b = .round && prev.opensHead⟩ :: opened)
        (.mark b.opener.toString) (d.advance 1) <;> rfl
    | closer b =>
      cases opened with
      | nil =>
        simp only [outcomeBehind]
        split <;> rfl
      | cons o outer =>
        simp only [outcomeBehind]
        split
        · simp only [codeOutcome]
          cases readCode nested outer (if o.head then .head else .mark b.closer.toString)
            (d.advance 1) <;> rfl
        · rfl
    | element =>
      simp only [outcomeBehind, elementOutcome]
      cases readElement d with
      | error e => rfl
      | ok r =>
        simp only [Except.map, Except.bind, codeOutcome]
        cases readCode nested opened .value r.stop <;> rfl
    | declaration keyword =>
      simp only [outcomeBehind]
      cases readDeclaration d keyword with
      | error e => rfl
      | ok r =>
        simp only [Except.map, Except.bind, codeOutcome]
        cases readCode nested opened (.mark ";") r.stop <;> rfl
    | token stop prev' =>
      simp only [outcomeBehind, codeOutcome]
      cases readCode nested opened prev' stop.1 <;> rfl

theorem readBlock_error {r : Refusal} (h : blockOutcome c = .error r) :
    readBlock c = .error r := by
  rw [blockOutcome, codeOutcome] at h
  rw [readBlock]
  cases read : readCode true [] .start c with
  | error e =>
    rw [read] at h
    cases h
    rfl
  | ok s =>
    simp only [read, Except.map, Except.bind] at h
    split at h
    · rename_i atEnd
      cases h
      dsimp only
      split
      · rfl
      · rename_i hr
        rw [hr] at atEnd
        cases atEnd
    · cases h

/-- The reader of a block goes one further than its brace. -/
theorem readBlock_ok {f : Found} (h : blockOutcome c = .ok (f, d)) :
    ∃ upto past, readBlock c = .ok ⟨(f, ⟨d, upto⟩), d.advance 1, past⟩ := by
  rw [blockOutcome, codeOutcome] at h
  cases read : readCode true [] .start c with
  | error e =>
    rw [read] at h
    cases h
  | ok s =>
    simp only [read, Except.map, Except.bind] at h
    split at h
    · cases h
    · rename_i goesOn
      cases h
      obtain ⟨x, t, hr⟩ := List.exists_cons_of_ne_nil (mt List.isEmpty_iff.2 goesOn)
      refine ⟨s.upto, s.upto.trans_past (past_of_cons hr), ?_⟩
      rw [readBlock, read]
      dsimp only
      split
      · rename_i atEnd
        rw [hr] at atEnd
        cases atEnd
      · rfl

end Code

/-! ## Templates -/

section Template

variable {start : Nat} {c : Cursor} {x : CodePoint} {t : Text}

theorem templateOutcome_escape (hr : c.rest = .scalar '\\' :: x :: t) :
    templateOutcome start c = templateOutcome start (c.advance 2) := by
  rw [templateOutcome, readTemplate]
  split
  · rename_i atEnd
    rw [hr] at atEnd
    cases atEnd
  · rename_i hr'
    obtain ⟨rfl, rfl⟩ := List.cons.inj (hr.symm.trans hr')
    rw [if_pos (by decide), templateOutcome]
    dsimp only
    cases readTemplate start (c.advance 2) <;> rfl

theorem templateOutcome_block (hr : c.rest = .scalar '$' :: .scalar '{' :: t) :
    templateOutcome start c = (blockOutcome (c.advance 2)).bind fun b =>
      (templateOutcome start (b.2.advance 1)).map fun r => (b.1 ++ r.1, r.2) := by
  rw [templateOutcome, readTemplate]
  split
  · rename_i atEnd
    rw [hr] at atEnd
    cases atEnd
  · rename_i hr'
    obtain ⟨rfl, rfl⟩ := List.cons.inj (hr.symm.trans hr')
    have opens : c.rest.startsWith "$\x7b" = true := by
      rw [hr]
      rfl
    rw [if_neg (by decide), if_neg (by decide), dif_pos opens]
    cases block : blockOutcome (c.advance 2) with
    | error e =>
      simp only [readBlock_error block]
      rfl
    | ok b =>
      obtain ⟨_, _, block⟩ := readBlock_ok block
      simp only [block, Except.bind, templateOutcome]
      cases readTemplate start (b.2.advance 1) <;> rfl

theorem templateOutcome_point (hr : c.rest = x :: t) (noEscape : x.is '\\' = false)
    (noEnd : x.is '\x60' = false) (noBlock : c.rest.startsWith "$\x7b" = false) :
    templateOutcome start c = templateOutcome start (c.advance 1) := by
  rw [templateOutcome, readTemplate]
  split
  · rename_i atEnd
    rw [hr] at atEnd
    cases atEnd
  · rename_i hr'
    obtain ⟨rfl, rfl⟩ := List.cons.inj (hr.symm.trans hr')
    rw [if_neg (by simp [noEscape]), if_neg (by simp [noEnd]), dif_neg (by simp [noBlock]),
      templateOutcome]
    cases readTemplate start (c.advance 1) <;> rfl

end Template

/-! ## Declarations -/

section Declaration

variable {c k q b : Cursor} {n : Nat} {t : Text}

def importAttributesOutcome (c : Cursor) : Except Refusal (Found × Cursor) :=
  (readImportAttributes c).map fun r => (r.value, r.stop)

theorem importAttributesOutcome_block (brace : c.FindsBrace b) (hr : b.rest = .scalar '{' :: t) :
    importAttributesOutcome c = (blockOutcome (b.advance 1)).map fun r => (r.1, r.2.advance 1) := by
  obtain ⟨a, ⟨ha, skips⟩, word, ⟨hb, skips'⟩⟩ := brace
  unfold AtAttributeWord at word
  rw [importAttributesOutcome, readImportAttributes]
  simp only [skips, if_pos word, skips']
  split
  · rename_i atEnd
    rw [hr] at atEnd
    cases atEnd
  · rename_i hr'
    obtain ⟨rfl, rfl⟩ := List.cons.inj (hr.symm.trans hr')
    rw [if_pos (by decide)]
    cases block : blockOutcome (b.advance 1) with
    | error e =>
      simp only [readBlock_error block]
      rfl
    | ok r =>
      obtain ⟨_, _, block⟩ := readBlock_ok block
      simp only [block]
      rfl

/-- The declaration that is read from `c`, with its gap at `k`, its path at `q`, and its
attributes up to `e`. -/
def declarationOf (c k q e : Cursor) (n : Nat) (read : ImportClause × Bool) :
    ImportDeclaration where
  span := (Span.point c.offset).extendTo e.skipSemicolon.1.offset
  gap := (Span.point k.offset).extendTo q.offset
  path := (Span.point q.offset).extendTo (q.offset + n)
  clause := read.1
  ofTypes := read.2

theorem readDeclaration_outcome (hk : c.Past k) (found : k.FindsPath q)
    (hs : Lexeme.stringLength? q.rest = some n) :
    (readDeclaration c ⟨k, hk⟩).map (fun r => (r.value, r.stop)) =
      (importAttributesOutcome (q.advance n)).bind fun a =>
        (readClause (c.rest.take (q.offset + n - c.offset)) (q.rest.take n) c.offset).map
          fun read => ({ imports := [declarationOf c k q a.2 n read] } ++ a.1,
            a.2.skipSemicolon.1) := by
  obtain ⟨p, ⟨hp, skips⟩, start⟩ := found
  have bounds := Lexeme.stringLength?_bounds hs
  have path : ∃ h : p.Upto q, (if p.rest.head?.any Lexeme.isQuote then .ok ⟨p, .refl p⟩
      else findPath c.offset 0 false [] p) = (.ok ⟨q, h⟩ : Except Refusal _) := by
    rcases start with ⟨isQuote, rfl⟩ | ⟨noQuote, finds⟩
    · exact ⟨.refl _, if_pos isQuote⟩
    · obtain ⟨h, found⟩ := findPath_of_findsLiteral finds c.offset
      exact ⟨h, by rw [noQuote, if_neg Bool.false_ne_true, found]⟩
  obtain ⟨hpq, path⟩ := path
  rw [readDeclaration]
  simp only [skips, path]
  split
  · rename_i none
    rw [hs] at none
    cases none
  · rename_i m isString
    rw [hs] at isString
    cases isString
    rw [importAttributesOutcome]
    cases readImportAttributes (q.advance n) with
    | error e => rfl
    | ok a =>
      dsimp only [Except.map, Except.bind]
      cases readClause (c.rest.take (q.offset + n - c.offset)) (q.rest.take n) c.offset with
      | error e => rfl
      | ok read =>
        simp only [declarationOf, spanTo_eq]
        rfl

end Declaration

/-! ## Elements -/

section Elements

variable {name : Text} {start : Nat} {region : Span} {c d q v : Cursor} {n : Nat} {x : CodePoint}
  {t : Text}

/-- The element that is read from `c` to a place, with what was read of its tag. -/
def elementOf (name : Text) (c e : Cursor) (tag : Tag) : Element where
  name
  span := (Span.point c.offset).extendTo e.offset
  region := tag.region
  selfClosing := tag.selfClosing
  parsed := tag.attributes

theorem elementOutcome_fragment (notAtEnd : c.rest ≠ []) (skips : (c.advance 1).Skips d)
    (hr : d.rest = .scalar '>' :: t) :
    elementOutcome c = (childrenOutcome [] c.offset (d.advance 1)).map fun r =>
      (elementOf [] c r.2 { region := .point d.offset, selfClosing := false } :: r.1, r.2) := by
  obtain ⟨hd, skips⟩ := skips
  rw [elementOutcome, readElement]
  split
  · contradiction
  simp only [skips]
  split
  · rename_i atEnd
    rw [hr] at atEnd
    cases atEnd
  · rename_i hr'
    obtain ⟨rfl, rfl⟩ := List.cons.inj (hr.symm.trans hr')
    rw [if_pos (by decide), childrenOutcome]
    cases readChildren [] c.offset (d.advance 1) with
    | error e => rfl
    | ok r =>
      simp only [Except.map, spanTo_eq]
      rfl

theorem elementOutcome_named (notAtEnd : c.rest ≠ []) (skips : (c.advance 1).Skips d)
    (eq : n = Lexeme.tagNameLength d.rest) (pos : 0 < n) :
    elementOutcome c =
      (tagOutcome (d.rest.take n) c.offset (.point (d.offset + n)) (d.advance n)).bind fun tag =>
        if tag.1.selfClosing then
          .ok (elementOf (d.rest.take n) c tag.2 tag.1 :: tag.1.elements, tag.2)
        else
          (childrenOutcome (d.rest.take n) c.offset tag.2).map fun r =>
            (elementOf (d.rest.take n) c r.2 tag.1 :: tag.1.elements ++ r.1, r.2) := by
  subst eq
  obtain ⟨hd, skips⟩ := skips
  rw [elementOutcome, readElement]
  split
  · contradiction
  simp only [skips]
  split
  · rename_i atEnd
    rw [atEnd] at pos
    cases pos
  · rename_i hr
    rw [if_neg (by simp [tagNameLength_pos (hr ▸ pos)]), dif_pos pos, tagOutcome]
    cases read : readTag (d.rest.take (Lexeme.tagNameLength d.rest)) c.offset
      (.point (d.offset + Lexeme.tagNameLength d.rest))
      (d.advance (Lexeme.tagNameLength d.rest)) with
    | error e =>
      simp only [Cursor.advance] at read ⊢
      simp only [read]
      rfl
    | ok tag =>
      simp only [Cursor.advance] at read ⊢
      simp only [read, Except.map, Except.bind, spanTo_eq]
      by_cases closed : tag.value.selfClosing = true
      · simp only [if_pos closed]
        rfl
      · simp only [if_neg closed, childrenOutcome]
        cases readChildren (d.rest.take (Lexeme.tagNameLength d.rest)) c.offset tag.stop <;> rfl

/-! ## Tags -/

theorem tagOutcome_attribute (skips : c.Skips d) (hr : d.rest = x :: t)
    (noSlash : d.rest.startsWith "/>" = false) (noEnd : x.is '>' = false) :
    tagOutcome name start region c = (attributeOutcome d).bind fun a =>
      (tagOutcome name start (region.extendTo a.2.offset) a.2).map fun r =>
        ({ r.1 with
            attributes := a.1.1 :: r.1.attributes
            elements := a.1.2 ++ r.1.elements }, r.2) := by
  obtain ⟨hd, skips⟩ := skips
  rw [tagOutcome, readTag]
  simp only [skips]
  split
  · rename_i atEnd
    rw [hr] at atEnd
    cases atEnd
  · rename_i hr'
    obtain ⟨rfl, rfl⟩ := List.cons.inj (hr.symm.trans hr')
    rw [dif_neg (by simp [noSlash]), if_neg (by simp [noEnd]), attributeOutcome]
    cases readAttribute d with
    | error e => rfl
    | ok a =>
      simp only [Except.map, Except.bind, tagOutcome]
      cases readTag name start (region.extendTo a.stop.offset) a.stop <;> rfl

/-! ## Attributes -/

theorem attributeOutcome_spread (hr : c.rest = .scalar '{' :: t) :
    attributeOutcome c = (blockOutcome (c.advance 1)).map fun b =>
      ((⟨none, .written ((Span.point c.offset).extendTo (b.2.offset + 1)) none none⟩,
        b.1.elements), b.2.advance 1) := by
  rw [attributeOutcome, readAttribute]
  split
  · rename_i atEnd
    rw [hr] at atEnd
    cases atEnd
  · rename_i hr'
    obtain ⟨rfl, rfl⟩ := List.cons.inj (hr.symm.trans hr')
    rw [if_pos (by decide)]
    cases block : blockOutcome (c.advance 1) with
    | error e =>
      simp only [readBlock_error block]
      rfl
    | ok b =>
      obtain ⟨_, _, block⟩ := readBlock_ok block
      simp only [block, spanTo_eq]
      rfl

/-- What is found in the value of an attribute, and where it ends. -/
def valueOutcome (c : Cursor) : Except Refusal ((AttributeValue × List Element) × Cursor) :=
  (readValue c).map fun r => (r.value, r.stop)

theorem attributeOutcome_value (eq : n = Lexeme.attributeNameLength c.rest) (pos : 0 < n)
    (skips : (c.advance n).Skips q) (hr : q.rest = .scalar '=' :: t)
    (skips' : (q.advance 1).Skips v) :
    attributeOutcome c = (valueOutcome v).map fun r =>
      ((⟨some (c.rest.take n), .written ((Span.point c.offset).extendTo r.2.offset)
        (some (c.rest.take n)) (some r.1.1)⟩, r.1.2), r.2) := by
  subst eq
  obtain ⟨hq, skips⟩ := skips
  obtain ⟨hv, skips'⟩ := skips'
  rw [attributeOutcome, readAttribute]
  split
  · rename_i atEnd
    rw [atEnd] at pos
    cases pos
  · rename_i hc
    rw [if_neg (by simp [attributeNameLength_pos (hc ▸ pos)]), dif_pos pos]
    simp only [skips]
    split
    · rename_i atEnd
      rw [hr] at atEnd
      cases atEnd
    · rename_i hr'
      obtain ⟨rfl, rfl⟩ := List.cons.inj (hr.symm.trans hr')
      rw [if_pos (by decide)]
      simp only [skips', valueOutcome]
      cases readValue v with
      | error e => rfl
      | ok r =>
        simp only [Except.map, spanTo_eq]

theorem valueOutcome_container (hr : c.rest = .scalar '{' :: t) :
    valueOutcome c = (blockOutcome (c.advance 1)).map fun b =>
      ((.container ((Span.point c.offset).extendTo (b.2.offset + 1))
        ((Span.point (c.offset + 1)).extendTo b.2.offset), b.1.elements), b.2.advance 1) := by
  rw [valueOutcome, readValue]
  split
  · rename_i atEnd
    rw [hr] at atEnd
    cases atEnd
  · rename_i hr'
    obtain ⟨rfl, rfl⟩ := List.cons.inj (hr.symm.trans hr')
    rw [if_neg (by decide), if_pos (by decide)]
    cases block : blockOutcome (c.advance 1) with
    | error e =>
      simp only [readBlock_error block]
      rfl
    | ok b =>
      obtain ⟨_, _, block⟩ := readBlock_ok block
      simp only [block, spanTo_eq]
      rfl

theorem valueOutcome_element (hr : c.rest = .scalar '<' :: t) :
    valueOutcome c = (elementOutcome c).map fun r =>
      ((.element ((Span.point c.offset).extendTo r.2.offset), r.1), r.2) := by
  rw [valueOutcome, readValue]
  split
  · rename_i atEnd
    rw [hr] at atEnd
    cases atEnd
  · rename_i hr'
    obtain ⟨rfl, rfl⟩ := List.cons.inj (hr.symm.trans hr')
    rw [if_neg (by decide), if_neg (by decide), if_pos (by decide), elementOutcome]
    cases readElement c with
    | error e => rfl
    | ok r =>
      simp only [Except.map, Progress.span, spanTo_eq]

/-! ## Children -/

theorem childrenOutcome_block (hr : c.rest = .scalar '{' :: t) :
    childrenOutcome name start c = (blockOutcome (c.advance 1)).bind fun b =>
      (childrenOutcome name start (b.2.advance 1)).map fun r => (b.1.elements ++ r.1, r.2) := by
  rw [childrenOutcome, readChildren]
  split
  · rename_i atEnd
    rw [hr] at atEnd
    cases atEnd
  · rename_i hr'
    obtain ⟨rfl, rfl⟩ := List.cons.inj (hr.symm.trans hr')
    rw [if_pos (by decide)]
    cases block : blockOutcome (c.advance 1) with
    | error e =>
      simp only [readBlock_error block]
      rfl
    | ok b =>
      obtain ⟨_, _, block⟩ := readBlock_ok block
      simp only [block, Except.bind, childrenOutcome]
      cases readChildren name start (b.2.advance 1) <;> rfl

theorem childrenOutcome_element (hr : c.rest = .scalar '<' :: t) (skips : (c.advance 1).Skips d)
    (opening : d.rest.startsWith "/" = false) :
    childrenOutcome name start c = (elementOutcome c).bind fun e =>
      (childrenOutcome name start e.2).map fun r => (e.1 ++ r.1, r.2) := by
  obtain ⟨hd, skips⟩ := skips
  rw [childrenOutcome, readChildren]
  split
  · rename_i atEnd
    rw [hr] at atEnd
    cases atEnd
  · rename_i hr'
    obtain ⟨rfl, rfl⟩ := List.cons.inj (hr.symm.trans hr')
    rw [if_neg (by decide), if_pos (by decide)]
    simp only [skips]
    rw [if_neg (by simp [opening]), elementOutcome]
    cases readElement c with
    | error e => rfl
    | ok e =>
      simp only [Except.map, Except.bind, childrenOutcome]
      cases readChildren name start e.stop <;> rfl

theorem childrenOutcome_text (hr : c.rest = x :: t) (noBlock : x.is '{' = false)
    (noElement : x.is '<' = false) :
    childrenOutcome name start c = childrenOutcome name start
      (c.advance (Text.countWhile (fun y => !(y.is '{' || y.is '<')) t + 1)) := by
  rw [childrenOutcome, readChildren]
  split
  · rename_i atEnd
    rw [hr] at atEnd
    cases atEnd
  · rename_i hr'
    obtain ⟨rfl, rfl⟩ := List.cons.inj (hr.symm.trans hr')
    rw [if_neg (by simp [noBlock]), if_neg (by simp [noElement]), childrenOutcome]
    simp only [skipText]
    cases readChildren name start
      (c.advance (Text.countWhile (fun y => !(y.is '{' || y.is '<')) t + 1)) <;> rfl

end Elements

/-! ## What is read -/

section Reads

variable {strict : Bool} {c d : Cursor} {f : Found}

theorem Reads.templateOutcome_eq (h : Reads strict .template c f d) (start : Nat) :
    templateOutcome start c = .ok (f, d) := by
  obtain ⟨_, read⟩ := h.accepts start
  rw [templateOutcome, read]
  rfl

theorem Reads.blockOutcome_eq (h : Reads strict .block c f d) :
    blockOutcome c = .ok (f, d) := by
  obtain ⟨_, read⟩ := h.accepts
  obtain ⟨t, hr⟩ := h.endsAt
  rw [blockOutcome, codeOutcome, read]
  simp only [Except.map, Except.bind, hr, List.isEmpty_cons, Bool.false_eq_true, if_false]

theorem Reads.importAttributesOutcome_eq (h : Reads strict .importAttributes c f d) :
    importAttributesOutcome c = .ok (f, d) := by
  obtain ⟨_, read⟩ := h.accepts
  rw [importAttributesOutcome, read]
  rfl

theorem Reads.elementOutcome_eq (h : Reads strict .element c f d) :
    elementOutcome c = .ok (f.elements, d) := by
  obtain ⟨_, read⟩ := h.accepts
  rw [elementOutcome, read]
  rfl

theorem Reads.tagOutcome_eq {before after : Span} {attributes : List Attribute}
    {selfClosing : Bool} (h : Reads strict (.tag before after attributes selfClosing) c f d)
    (name : Text) (start : Nat) :
    tagOutcome name start before c = .ok (⟨attributes, after, f.elements, selfClosing⟩, d) := by
  obtain ⟨_, read⟩ := h.accepts name start
  rw [tagOutcome, read]
  rfl

theorem Reads.attributeOutcome_eq {a : Attribute} (h : Reads strict (.attribute a) c f d) :
    attributeOutcome c = .ok ((a, f.elements), d) := by
  obtain ⟨_, read⟩ := h.accepts
  rw [attributeOutcome, read]
  rfl

end Reads

end Document

end StyleBinding
