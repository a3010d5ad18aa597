import StyleBinding.Proofs.Reading.Staying

/-!
# Outcomes in front of another text

Where a source is replaced from a mark on, a stage that leads to the mark has the outcome it
had as soon as the next stage has (`Document.agrees_of_leads`), a refusal included. So all
of them have where the last one has (`Document.agrees_of_reaches`).
-/

namespace StyleBinding

open Cursor Document Lexeme

namespace Relocation

variable {m : Relocation} {c d e k p q b : Cursor} {x : CodePoint} {t : Text} {f : Found} {n : Nat}

/-- A stage has the same outcome in front of the other text. -/
def Agrees (m : Relocation) : Stage → Prop
  | ⟨.code nested opened prev, c⟩ =>
    codeOutcome nested opened prev (m.place c) = codeOutcome nested opened prev c
  | ⟨.template start, c⟩ => templateOutcome start (m.place c) = templateOutcome start c
  | ⟨.element, c⟩ => elementOutcome (m.place c) = elementOutcome c
  | ⟨.tag name start region, c⟩ =>
    tagOutcome name start region (m.place c) = tagOutcome name start region c
  | ⟨.children name start, c⟩ =>
    childrenOutcome name start (m.place c) = childrenOutcome name start c

theorem Agrees.block (h : m.Agrees ⟨.block, c⟩) : blockOutcome (m.place c) = blockOutcome c := by
  rw [blockOutcome, blockOutcome, h]

namespace Stays

/-! ## Declarations -/

theorem skipSemicolon_place (h : m.Stays) (covers : m.Covers c)
    (stops : c.skipSemicolon.1.Upto m.stop) :
    (m.place c).skipSemicolon.1 = m.place c.skipSemicolon.1 := by
  have blanks := h.countWhile_eq covers (p := isInlineBlank) (by decide) (by decide)
  have upto := h.countWhile_upto covers.upto (p := isInlineBlank) (by decide) (by decide)
  have covers' := h.covers upto
  have head := h.head?_eq covers'
  rw [covers.place_advance covers', advance, advance] at head
  dsimp only at head
  rw [skipSemicolon_eq] at stops ⊢
  rw [skipSemicolon_eq, blanks, head]
  split
  · rename_i isSemicolon
    rw [if_pos isSemicolon] at stops
    exact (covers.place_advance (h.covers stops)).symm
  · rfl

theorem findsBrace (h : m.Stays) (covers : m.Covers c) (brace : c.FindsBrace b)
    (stops : b.Upto m.stop) : (m.place c).FindsBrace (m.place b) := by
  obtain ⟨d, skips, word, skips'⟩ := brace
  have stopsN := skips'.upto.trans stops
  have stopsD := (upto_advance (nameLength_le d.rest)).trans stopsN
  have coversD := h.covers stopsD
  have coversN := h.covers stopsN
  refine ⟨m.place d, h.skips covers skips stopsD, ?_, ?_⟩
  · rwa [AtAttributeWord, h.word_eq coversD]
  · rw [h.nameLength_eq coversD, ← coversD.place_advance coversN]
    exact h.skips coversN skips' stops

/-- The blanks in front of a semicolon belong to what code starts with. -/
theorem seesCode_of_semicolon (sees : m.SeesCode c.skipSemicolon.1) : m.SeesCode c := by
  rw [skipSemicolon_eq] at sees
  split at sees
  · rename_i isSemicolon
    obtain ⟨e, skips, stops, _⟩ := sees
    obtain ⟨x, t, hr⟩ : ∃ x t, c.rest.drop (Text.countWhile isInlineBlank c.rest) = x :: t := by
      refine List.exists_cons_of_ne_nil fun atEnd => ?_
      rw [atEnd] at isSemicolon
      cases isSemicolon
    rw [hr, List.head?_cons, Option.any_some, CodePoint.is_iff] at isSemicolon
    obtain rfl := isSemicolon
    have here : (c.advance (Text.countWhile isInlineBlank c.rest)).rest = .scalar ';' :: t := hr
    have behind := (past_of_cons here).upto
    rw [advance_advance] at behind
    have blank (y : CodePoint) (inline : isInlineBlank y = true) : y.isBlank = true := by
      rw [isInlineBlank, Bool.or_eq_true, CodePoint.is_iff, CodePoint.is_iff] at inline
      rcases inline with rfl | rfl <;> decide
    refine ⟨_, skips_countWhile blank (skips_of_startsToken here (by decide)),
      behind.trans (skips.upto.trans stops), fun word => ?_⟩
    exact absurd word (not_atAttributeWord here (by decide))
  · exact sees

/-- Attributes of a declaration, or that there are none. -/
theorem reads_importAttributes (h : m.Stays) (covers : m.Covers c)
    (reads : Reads false .importAttributes c f e) (stops : e.Upto m.stop) (sees : m.SeesCode e) :
    Reads false .importAttributes (m.place c) f (m.place e) := by
  cases reads with
  | attributesNone lacks =>
    obtain ⟨d, skips, stopsD, behind⟩ := sees
    have skips' := h.skips covers skips stopsD
    have word := h.word_eq (h.covers stopsD)
    refine .attributesNone ?_
    rcases lacks with ⟨d', skipsD, noWord⟩ | ⟨b, brace, noBrace⟩
    · obtain rfl := skips.unique skipsD
      exact .inl ⟨m.place d, skips', by rwa [AtAttributeWord, word]⟩
    · obtain ⟨d', skipsD, isWord, skipsB⟩ := id brace
      obtain rfl := skips.unique skipsD
      obtain ⟨e, skipsE, stopsE⟩ := behind isWord
      obtain rfl := skipsE.unique skipsB
      exact .inr ⟨m.place e, h.findsBrace covers brace stopsE,
        by rwa [h.head?_eq (h.covers stopsE)]⟩
  | @attributesBlock _ b d t _ brace hr block =>
    obtain ⟨u, hu⟩ := block.endsAt
    have stopsD := (past_of_cons hu).upto.trans stops
    have stopsB := block.upto.trans stopsD
    have coversB := h.covers ((past_of_cons hr).upto.trans stopsB)
    obtain ⟨s, hs⟩ := coversB.cons hr stopsB
    obtain ⟨block', coversD, advanced⟩ := h.readsBlock block (h.covers stopsB) stops
    rw [advanced]
    rw [coversB.place_advance (h.covers stopsB)] at block'
    exact .attributesBlock (h.findsBrace covers brace coversB.upto) hs block'

/-- The keyword of a declaration is read where its path is in front of the mark. -/
theorem lead_declaration {topLevel : Bool} {prev : Previous} {keyword : { k : Cursor // d.Past k }}
    (h : m.Stays) (covers : m.Covers d) (lead : Lead.At topLevel prev d (.declaration keyword))
    (skips : keyword.1.Skips p) (stops : p.Upto m.stop) :
    ∃ past, Lead.At topLevel prev (m.place d) (.declaration ⟨m.place keyword.1, past⟩) := by
  cases lead.begins with
  | declaration announces isEnd starts =>
    obtain ⟨k, past⟩ := keyword
    dsimp only at isEnd starts skips ⊢
    have coversK := h.covers (skips.upto.trans stops)
    have same : m.place k = (m.place d).advance (nameLength (m.place d).rest) := by
      rw [h.nameLength_eq covers, isEnd]
      exact covers.place_advance (isEnd ▸ coversK)
    have starts' : Lead.startsDeclaration (m.place k) = .ok true := by
      rw [Lead.startsDeclaration_eq skips] at starts
      rw [Lead.startsDeclaration_eq (h.skips coversK skips stops), h.head?_eq (h.covers stops)]
      exact starts
    have word : Lead.Announces topLevel prev
        ((m.place d).rest.take (nameLength (m.place d).rest)) := by
      rwa [h.word_eq covers]
    have read := Lead.at_declaration word (same ▸ starts')
    rwa [← same] at read

/-- The outcome of a declaration whose path is in front of the mark. -/
theorem declarationOutcome_eq {keyword : { k : Cursor // d.Past k }} (h : m.Stays)
    (covers : m.Covers d) (found : keyword.1.FindsPath q) (hs : stringLength? q.rest = some n)
    (stops : (q.advance n).Upto m.stop) (past : (m.place d).Past (m.place keyword.1)) :
    (readDeclaration (m.place d) ⟨m.place keyword.1, past⟩).map (fun r => (r.value, r.stop)) =
      (importAttributesOutcome (m.place (q.advance n))).bind fun a =>
        (readClause (d.rest.take (q.offset + n - d.offset)) (q.rest.take n) d.offset).map
          fun read => ({ imports := [declarationOf d keyword.1 q a.2 n read] } ++ a.1,
            a.2.skipSemicolon.1) := by
  have upto : q.Upto (q.advance n) := upto_advance (stringLength?_bounds hs).2
  have coversQ := h.covers (upto.trans stops)
  have coversK := h.covers (found.upto.trans coversQ.upto)
  have keeps : m.KeepsQuote q := by
    obtain ⟨x, t, hr, isQuote⟩ := isQuote_of_stringLength? hs
    have bounds := stringLength?_bounds hs
    have first := (past_advance bounds.1 bounds.2).advance_upto
    obtain ⟨s, hr'⟩ := coversQ.cons hr (first.trans stops)
    exact ⟨[], x, t, s, isQuote, hr, hr'⟩
  have found' := coversK.findsPath found coversQ.upto keeps
  have whole : d.Upto (d.advance (q.offset + n - d.offset)) ∧
      d.advance (q.offset + n - d.offset) = q.advance n := by
    obtain ⟨j, le, same⟩ := keyword.2.upto.trans (found.upto.trans upto)
    have offset := congrArg Cursor.offset same
    simp only [advance] at offset
    have eq : q.offset + n - d.offset = j := by omega
    rw [eq]
    exact ⟨⟨j, le, rfl⟩, same.symm⟩
  rw [readDeclaration_outcome past found' (coversQ.stringLength?_eq hs stops),
    coversQ.place_advance (h.covers stops), coversQ.take upto stops, h.place_offset, h.place_offset,
    covers.take whole.1 (whole.2.symm ▸ stops)]
  simp only [declarationOf, h.place_offset]

end Stays

end Relocation

/-! ## One stage -/

namespace Document

open Relocation

variable {m : Relocation} {nested : Bool} {opened : List Opened} {prev : Previous}
  {name : Text} {start : Nat} {region : Span} {c d e q v b : Cursor} {n : Nat} {x : CodePoint}
  {t : Text} {f : Found}

section Code

theorem agrees_codeTemplate (h : m.Stays) (skips : c.Skips d)
    (lead : Lead.At (!nested && opened.isEmpty) prev d .template)
    (stops : (d.advance 1).Upto m.stop) (agrees : m.Agrees ⟨.template d.offset, d.advance 1⟩) :
    m.Agrees ⟨.code nested opened prev, c⟩ := by
  cases lead.begins with
  | template hr =>
    have covers := h.covers (skips.upto.trans ((past_of_cons hr).upto.trans stops))
    obtain ⟨skips', ⟨s, hs⟩, _, advanced⟩ := relocates_mark covers skips hr (by decide) stops
    simp only [Agrees] at agrees ⊢
    rw [codeOutcome_eq skips lead, codeOutcome_eq skips' (Lead.at_template hs)]
    simp only [outcomeBehind, h.place_offset, ← advanced, agrees]

theorem agrees_behindTemplate (h : m.Stays) (skips : c.Skips d)
    (lead : Lead.At (!nested && opened.isEmpty) prev d .template)
    (inner : Reads false .template (d.advance 1) f e) (stops : e.Upto m.stop)
    (agrees : m.Agrees ⟨.code nested opened .value, e⟩) :
    m.Agrees ⟨.code nested opened prev, c⟩ := by
  cases lead.begins with
  | template hr =>
    have stopsD := inner.upto.trans stops
    have covers := h.covers (skips.upto.trans ((past_of_cons hr).upto.trans stopsD))
    obtain ⟨skips', ⟨s, hs⟩, coversD, advanced⟩ := relocates_mark covers skips hr (by decide) stopsD
    have inner' := h.reads inner rfl coversD stops trivial
    rw [advanced] at inner'
    simp only [Agrees] at agrees ⊢
    rw [codeOutcome_eq skips lead, codeOutcome_eq skips' (Lead.at_template hs)]
    simp only [outcomeBehind, inner.templateOutcome_eq, inner'.templateOutcome_eq, Except.bind,
      agrees]

theorem agrees_codeOpen {b : Bracket} (h : m.Stays) (skips : c.Skips d)
    (lead : Lead.At (!nested && opened.isEmpty) prev d (.opener b))
    (stops : (d.advance 1).Upto m.stop)
    (agrees : m.Agrees ⟨.code nested (⟨b, b = .round && prev.opensHead⟩ :: opened)
      (.mark b.opener.toString), d.advance 1⟩) :
    m.Agrees ⟨.code nested opened prev, c⟩ := by
  cases lead.begins with
  | opener hr =>
    have covers := h.covers (skips.upto.trans ((past_of_cons hr).upto.trans stops))
    obtain ⟨skips', ⟨s, hs⟩, _, advanced⟩ :=
      relocates_mark covers skips hr (by cases b <;> decide) stops
    simp only [Agrees] at agrees ⊢
    rw [codeOutcome_eq skips lead, codeOutcome_eq skips' (Lead.at_opener hs)]
    simp only [outcomeBehind, ← advanced, agrees]

theorem agrees_codeShut {o : Opened} (h : m.Stays) (skips : c.Skips d)
    (lead : Lead.At (!nested && (o :: opened).isEmpty) prev d (.closer o.bracket))
    (stops : (d.advance 1).Upto m.stop)
    (agrees : m.Agrees ⟨.code nested opened
      (if o.head then .head else .mark o.bracket.closer.toString), d.advance 1⟩) :
    m.Agrees ⟨.code nested (o :: opened) prev, c⟩ := by
  obtain ⟨t, hr⟩ := lead.of_closer
  have covers := h.covers (skips.upto.trans ((past_of_cons hr).upto.trans stops))
  obtain ⟨skips', ⟨s, hs⟩, _, advanced⟩ :=
    relocates_mark covers skips hr (by cases o.bracket <;> decide) stops
  simp only [Agrees] at agrees ⊢
  rw [codeOutcome_eq skips lead, codeOutcome_eq skips' (Lead.at_closer hs)]
  simp only [outcomeBehind, if_true, ← advanced, agrees]

/-- An element begins in front of the mark as soon as it is seen there how it goes on. -/
theorem place_element (h : m.Stays) (skips : c.Skips d)
    (lead : Lead.At (!nested && opened.isEmpty) prev d .element) (sees : m.SeesElement d) :
    (m.place c).Skips (m.place d) ∧
      Lead.At (!nested && opened.isEmpty) prev (m.place d) .element ∧ m.Covers d := by
  obtain ⟨q, x, t, skipsQ, hr, _, upto⟩ := sees
  have two := (skipsQ.upto.advance_one hr).trans upto
  have covers : m.Covers c := by
    obtain ⟨_, _, hd, _⟩ := id lead
    have behind := skipsQ.upto.trans ((past_of_cons hr).upto.trans upto)
    exact h.covers (skips.upto.trans ((past_of_cons hd).upto.trans behind))
  exact relocates_element covers skips lead two (.refl prev)

theorem agrees_codeElement (h : m.Stays) (skips : c.Skips d)
    (lead : Lead.At (!nested && opened.isEmpty) prev d .element) (sees : m.SeesElement d)
    (agrees : m.Agrees ⟨.element, d⟩) : m.Agrees ⟨.code nested opened prev, c⟩ := by
  obtain ⟨skips', lead', _⟩ := place_element h skips lead sees
  simp only [Agrees] at agrees ⊢
  rw [codeOutcome_eq skips lead, codeOutcome_eq skips' lead']
  simp only [outcomeBehind, agrees]

theorem agrees_behindElement (h : m.Stays) (skips : c.Skips d)
    (lead : Lead.At (!nested && opened.isEmpty) prev d .element)
    (inner : Reads false .element d f e) (stops : e.Upto m.stop)
    (agrees : m.Agrees ⟨.code nested opened .value, e⟩) :
    m.Agrees ⟨.code nested opened prev, c⟩ := by
  have covers := h.covers (skips.upto.trans (inner.upto.trans stops))
  obtain ⟨skips', lead', coversD⟩ :=
    relocates_element covers skips lead (inner.element_two.trans stops) (.refl prev)
  have inner' := h.reads inner rfl coversD stops trivial
  simp only [Agrees] at agrees ⊢
  rw [codeOutcome_eq skips lead, codeOutcome_eq skips' lead']
  simp only [outcomeBehind, inner.elementOutcome_eq, inner'.elementOutcome_eq, Except.bind, agrees]

theorem agrees_codeAttributes {keyword : { k : Cursor // d.Past k }} (h : m.Stays)
    (skips : c.Skips d)
    (lead : Lead.At (!nested && opened.isEmpty) prev d (.declaration keyword))
    (found : keyword.1.FindsPath q) (hs : stringLength? q.rest = some n)
    (brace : (q.advance n).FindsBrace b) (hr : b.rest = .scalar '{' :: t)
    (stops : (b.advance 1).Upto m.stop) (agrees : m.Agrees ⟨.block, b.advance 1⟩) :
    m.Agrees ⟨.code nested opened prev, c⟩ := by
  have stopsB := (past_of_cons hr).upto.trans stops
  have stopsN := brace.upto.trans stopsB
  have stopsQ := (upto_advance (stringLength?_bounds hs).2).trans stopsN
  have coversD := h.covers (keyword.2.upto.trans (found.upto.trans stopsQ))
  have coversB := h.covers stopsB
  obtain ⟨p, skipsP, uptoQ⟩ := found.exists_skips
  obtain ⟨past, lead'⟩ := h.lead_declaration coversD lead skipsP (uptoQ.trans stopsQ)
  obtain ⟨s, hs'⟩ := coversB.cons hr stops
  have attributes : importAttributesOutcome (m.place (q.advance n)) =
      importAttributesOutcome (q.advance n) := by
    rw [importAttributesOutcome_block brace hr,
      importAttributesOutcome_block (h.findsBrace (h.covers stopsN) brace stopsB) hs',
      ← coversB.place_advance (h.covers stops), agrees.block]
  have skips' := h.skips (h.covers (skips.upto.trans coversD.upto)) skips coversD.upto
  simp only [Agrees]
  rw [codeOutcome_eq skips lead, codeOutcome_eq skips' lead']
  simp only [outcomeBehind, h.declarationOutcome_eq coversD found hs stopsN past,
    readDeclaration_outcome keyword.2 found hs, attributes]

theorem agrees_behindDeclaration {keyword : { k : Cursor // d.Past k }} (h : m.Stays)
    (skips : c.Skips d)
    (lead : Lead.At (!nested && opened.isEmpty) prev d (.declaration keyword))
    (inner : Reads false (.declaration keyword.1) d f e) (stops : e.Upto m.stop)
    (sees : m.SeesCode e) (agrees : m.Agrees ⟨.code nested opened (.mark ";"), e⟩) :
    m.Agrees ⟨.code nested opened prev, c⟩ := by
  cases inner with
  | @declaration _ _ q e n clause ofTypes f hk hq hs he found attributes means =>
    have stopsE := e.skipSemicolon.2.trans stops
    have stopsN := attributes.upto.trans stopsE
    have stopsQ := (upto_advance (stringLength?_bounds hs).2).trans stopsN
    have coversD := h.covers (keyword.2.upto.trans (found.upto.trans stopsQ))
    obtain ⟨p, skipsP, uptoQ⟩ := found.exists_skips
    obtain ⟨past, lead'⟩ := h.lead_declaration coversD lead skipsP (uptoQ.trans stopsQ)
    have attributes' := h.reads_importAttributes (h.covers stopsN) attributes stopsE
      (Stays.seesCode_of_semicolon sees)
    have semicolon := h.skipSemicolon_place (h.covers stopsE) stops
    have skips' := h.skips (h.covers (skips.upto.trans coversD.upto)) skips coversD.upto
    simp only [Agrees] at agrees ⊢
    rw [codeOutcome_eq skips lead, codeOutcome_eq skips' lead']
    simp only [outcomeBehind, h.declarationOutcome_eq coversD found hs stopsN past,
      readDeclaration_outcome keyword.2 found hs, attributes.importAttributesOutcome_eq,
      attributes'.importAttributesOutcome_eq]
    simp only [means, Except.bind, Except.map, declarationOf, semicolon, h.place_offset, agrees]

theorem agrees_codeToken {prev' : Previous} {stop : { e : Cursor // d.Past e }} (h : m.Stays)
    (skips : c.Skips d) (lead : Lead.At (!nested && opened.isEmpty) prev d (.token stop prev'))
    (stops : stop.1.Upto m.stop) (sees : m.SeesCode stop.1)
    (agrees : m.Agrees ⟨.code nested opened prev', stop.1⟩) :
    m.Agrees ⟨.code nested opened prev, c⟩ := by
  have coversD := h.covers (stop.2.upto.trans stops)
  have coversE := h.covers stops
  obtain ⟨past, skips', lead', _⟩ := relocates_token (h.covers (skips.upto.trans coversD.upto))
    skips lead stops (h.alike_at coversE) (h.stray prev d coversD) (.refl prev) (by
      intro n lexed isStop announces
      have whole := List.take_append_drop n d.rest
      rw [announces.1] at whole
      have plain := (lexed.eq_nameLength whole.symm (.inl rfl)).2 announces
      obtain ⟨e, skipsE, stopsE, _⟩ := sees
      rw [← isStop, Lead.startsDeclaration_eq skipsE] at plain
      rw [Lead.startsDeclaration_eq (h.skips coversE skipsE stopsE), h.head?_eq (h.covers stopsE)]
      exact plain)
  simp only [Agrees] at agrees ⊢
  rw [codeOutcome_eq skips lead, codeOutcome_eq skips' lead']
  simp only [outcomeBehind, agrees]

end Code

section Template

theorem agrees_templateEscape (h : m.Stays) (hr : c.rest = .scalar '\\' :: x :: t)
    (stops : (c.advance 2).Upto m.stop) (agrees : m.Agrees ⟨.template start, c.advance 2⟩) :
    m.Agrees ⟨.template start, c⟩ := by
  have covers := h.covers ((upto_advance (by simp [hr])).trans stops)
  obtain ⟨s, hs⟩ := covers.cons_cons hr stops
  simp only [Agrees] at agrees ⊢
  rw [templateOutcome_escape hr, templateOutcome_escape hs,
    ← covers.place_advance (h.covers stops), agrees]

theorem agrees_templateBlock (h : m.Stays) (hr : c.rest = .scalar '$' :: .scalar '{' :: t)
    (stops : (c.advance 2).Upto m.stop) (agrees : m.Agrees ⟨.block, c.advance 2⟩) :
    m.Agrees ⟨.template start, c⟩ := by
  have covers := h.covers ((upto_advance (by simp [hr])).trans stops)
  obtain ⟨s, hs⟩ := covers.cons_cons hr stops
  simp only [Agrees]
  rw [templateOutcome_block hr, templateOutcome_block hs,
    ← covers.place_advance (h.covers stops), agrees.block]

theorem agrees_templateBehindBlock (h : m.Stays)
    (hr : c.rest = .scalar '$' :: .scalar '{' :: t) (block : Reads false .block (c.advance 2) f d)
    (stops : (d.advance 1).Upto m.stop) (agrees : m.Agrees ⟨.template start, d.advance 1⟩) :
    m.Agrees ⟨.template start, c⟩ := by
  obtain ⟨u, hu⟩ := block.endsAt
  have stops2 := block.upto.trans ((past_of_cons hu).upto.trans stops)
  have covers := h.covers ((upto_advance (by simp [hr])).trans stops2)
  obtain ⟨s, hs⟩ := covers.cons_cons hr stops2
  obtain ⟨block', _, advanced⟩ := h.readsBlock block (h.covers stops2) stops
  rw [covers.place_advance (h.covers stops2)] at block'
  simp only [Agrees] at agrees ⊢
  rw [templateOutcome_block hr, templateOutcome_block hs]
  simp only [block.blockOutcome_eq, block'.blockOutcome_eq, Except.bind, ← advanced, agrees]

theorem agrees_templatePoint (h : m.Stays) (hr : c.rest = x :: t) (noEscape : x.is '\\' = false)
    (noEnd : x.is '\x60' = false) (noBlock : c.rest.startsWith "$\x7b" = false)
    (stops : (c.advance 1).Upto m.stop) (agrees : m.Agrees ⟨.template start, c.advance 1⟩) :
    m.Agrees ⟨.template start, c⟩ := by
  have covers := h.covers ((past_of_cons hr).upto.trans stops)
  obtain ⟨s, hs⟩ := covers.cons hr stops
  have noBlock' := (h.startsWith_eq (s := "$\x7b") covers rfl (by decide) (by decide)).trans noBlock
  simp only [Agrees] at agrees ⊢
  rw [templateOutcome_point hr noEscape noEnd noBlock,
    templateOutcome_point hs noEscape noEnd noBlock', ← covers.place_advance (h.covers stops),
    agrees]

end Template

section Elements

theorem agrees_fragment (h : m.Stays) (notAtEnd : c.rest ≠ []) (skips : (c.advance 1).Skips d)
    (hr : d.rest = .scalar '>' :: t) (stops : (d.advance 1).Upto m.stop)
    (agrees : m.Agrees ⟨.children [] c.offset, d.advance 1⟩) : m.Agrees ⟨.element, c⟩ := by
  have first : c.Upto (c.advance 1) := upto_advance (List.length_pos_iff.2 notAtEnd)
  have covers := h.covers (first.trans (skips.upto.trans ((past_of_cons hr).upto.trans stops)))
  obtain ⟨notAtEnd', skips', ⟨s, hs⟩, _, _, advanced⟩ :=
    relocates_behind covers notAtEnd skips hr (by decide) stops
  simp only [Agrees] at agrees ⊢
  rw [elementOutcome_fragment notAtEnd skips hr, elementOutcome_fragment notAtEnd' skips' hs]
  simp only [h.place_offset, ← advanced, agrees, elementOf]

theorem agrees_elementTag (h : m.Stays) (notAtEnd : c.rest ≠ []) (skips : (c.advance 1).Skips d)
    (eq : n = tagNameLength d.rest) (pos : 0 < n) (stops : (d.advance n).Upto m.stop)
    (sees : m.SeesTag (d.advance n))
    (agrees : m.Agrees ⟨.tag (d.rest.take n) c.offset (.point (d.offset + n)), d.advance n⟩) :
    m.Agrees ⟨.element, c⟩ := by
  have first : c.Upto (c.advance 1) := upto_advance (List.length_pos_iff.2 notAtEnd)
  have name : d.Upto (d.advance n) := upto_advance (eq ▸ tagNameLength_le _)
  have covers := h.covers (first.trans (skips.upto.trans (name.trans stops)))
  obtain ⟨notAtEnd', skips', eq', word, _, _, advanced⟩ :=
    relocates_name covers notAtEnd skips eq pos stops fun covers =>
      sees.seen covers ⟨none, .unwritten⟩
  simp only [Agrees] at agrees ⊢
  rw [elementOutcome_named notAtEnd skips eq pos, elementOutcome_named notAtEnd' skips' eq' pos]
  simp only [h.place_offset, word, ← advanced, agrees, elementOf]

theorem agrees_elementChildren {attributes : List Attribute} (h : m.Stays)
    (notAtEnd : c.rest ≠ []) (skips : (c.advance 1).Skips d) (eq : n = tagNameLength d.rest)
    (pos : 0 < n)
    (tag : Reads false (.tag (.point (d.offset + n)) region attributes false) (d.advance n) f e)
    (stops : e.Upto m.stop) (agrees : m.Agrees ⟨.children (d.rest.take n) c.offset, e⟩) :
    m.Agrees ⟨.element, c⟩ := by
  have first : c.Upto (c.advance 1) := upto_advance (List.length_pos_iff.2 notAtEnd)
  have name : d.Upto (d.advance n) := upto_advance (eq ▸ tagNameLength_le _)
  have stopsN := tag.upto.trans stops
  have covers := h.covers (first.trans (skips.upto.trans (name.trans stopsN)))
  obtain ⟨notAtEnd', skips', eq', word, _, coversN, advanced⟩ :=
    relocates_name (a := ⟨none, .unwritten⟩) covers notAtEnd skips eq pos stopsN fun covers =>
      tag.tag_seen covers stops
  have tag' := h.reads tag rfl coversN stops trivial
  rw [advanced] at tag'
  simp only [Agrees] at agrees ⊢
  rw [elementOutcome_named notAtEnd skips eq pos, elementOutcome_named notAtEnd' skips' eq' pos]
  simp only [h.place_offset, word, tag.tagOutcome_eq, tag'.tagOutcome_eq, Except.bind,
    Bool.false_eq_true, if_false, agrees, elementOf]

theorem agrees_tagSpread (h : m.Stays) (skips : c.Skips d) (hr : d.rest = .scalar '{' :: t)
    (stops : (d.advance 1).Upto m.stop) (agrees : m.Agrees ⟨.block, d.advance 1⟩) :
    m.Agrees ⟨.tag name start region, c⟩ := by
  have covers := h.covers (skips.upto.trans ((past_of_cons hr).upto.trans stops))
  obtain ⟨skips', ⟨s, hs⟩, _, advanced⟩ := relocates_mark covers skips hr (by decide) stops
  have noSlash {u : Text} : Text.startsWith (.scalar '{' :: u) "/>" = false :=
    startsWith_eq_false rfl (by decide)
  simp only [Agrees]
  rw [tagOutcome_attribute skips hr (hr ▸ noSlash) (by decide),
    tagOutcome_attribute skips' hs (hs ▸ noSlash) (by decide), attributeOutcome_spread hr,
    attributeOutcome_spread hs, ← advanced, agrees.block, h.place_offset]

/-- The rest of a tag has the same outcome as soon as the value of its next attribute has. -/
theorem agrees_tag_of_value {y : CodePoint} {u : Text} (h : m.Stays) (skips : c.Skips d)
    (eq : n = attributeNameLength d.rest) (pos : 0 < n) (skips' : (d.advance n).Skips q)
    (hr : q.rest = .scalar '=' :: t) (skipsV : (q.advance 1).Skips v) (hv : v.rest = y :: u)
    (starts : startsToken y = true) (stops : (v.advance 1).Upto m.stop)
    (agrees : valueOutcome (m.place v) = valueOutcome v) :
    m.Agrees ⟨.tag name start region, c⟩ := by
  have stopsQ := skipsV.upto.trans ((past_of_cons hv).upto.trans stops)
  have stopsN := skips'.upto.trans ((past_of_cons hr).upto.trans stopsQ)
  have past : d.Past (d.advance n) := past_advance pos (eq ▸ attributeNameLength_le _)
  have coversD := h.covers (past.upto.trans stopsN)
  obtain ⟨x, w, hd⟩ : ∃ x w, d.rest = x :: w := List.exists_cons_of_length_pos (by
    have := past.length_lt
    omega)
  obtain ⟨startsD, _⟩ := head_of_attributeNameLength hd (eq ▸ pos)
  obtain ⟨skipsD, ⟨s, hs⟩, _⟩ := relocates_mark (h.covers (skips.upto.trans coversD.upto)) skips hd
    startsD (past.advance_upto.trans stopsN)
  obtain ⟨eq', word, skips₁, ⟨r, hr'⟩, skips₂, _⟩ :=
    relocates_valued coversD eq pos skips' hr skipsV hv starts stops
  have noEnd : x.is '>' = false := by
    rw [Bool.eq_false_iff]
    intro isEnd
    rw [eq, hd, CodePoint.is_iff.1 isEnd] at pos
    exact Nat.lt_irrefl 0 pos
  simp only [Agrees]
  rw [tagOutcome_attribute skips hd (hd ▸ startsWith_eq_false rfl startsD) noEnd,
    tagOutcome_attribute skipsD hs (hs ▸ startsWith_eq_false rfl startsD) noEnd,
    attributeOutcome_value eq pos skips' hr skipsV,
    attributeOutcome_value eq' pos skips₁ hr' skips₂, agrees, word, h.place_offset]

theorem agrees_tagContainer {u : Text} (h : m.Stays) (skips : c.Skips d)
    (eq : n = attributeNameLength d.rest) (pos : 0 < n) (skips' : (d.advance n).Skips q)
    (hr : q.rest = .scalar '=' :: t) (skipsV : (q.advance 1).Skips v)
    (hv : v.rest = .scalar '{' :: u) (stops : (v.advance 1).Upto m.stop)
    (agrees : m.Agrees ⟨.block, v.advance 1⟩) : m.Agrees ⟨.tag name start region, c⟩ := by
  have coversV := h.covers ((past_of_cons hv).upto.trans stops)
  obtain ⟨s, hs⟩ := coversV.cons hv stops
  refine agrees_tag_of_value h skips eq pos skips' hr skipsV hv (by decide) stops ?_
  rw [valueOutcome_container hv, valueOutcome_container hs,
    ← coversV.place_advance (h.covers stops), agrees.block, h.place_offset]

theorem agrees_tagElement {u : Text} (h : m.Stays) (skips : c.Skips d)
    (eq : n = attributeNameLength d.rest) (pos : 0 < n) (skips' : (d.advance n).Skips q)
    (hr : q.rest = .scalar '=' :: t) (skipsV : (q.advance 1).Skips v)
    (hv : v.rest = .scalar '<' :: u) (sees : m.SeesElement v) (agrees : m.Agrees ⟨.element, v⟩) :
    m.Agrees ⟨.tag name start region, c⟩ := by
  obtain ⟨p, x, w, skipsP, hp, _, upto⟩ := sees
  have stops := skipsP.upto.trans ((past_of_cons hp).upto.trans upto)
  obtain ⟨s, hs⟩ := (h.covers ((past_of_cons hv).upto.trans stops)).cons hv stops
  refine agrees_tag_of_value h skips eq pos skips' hr skipsV hv (by decide) stops ?_
  simp only [Agrees] at agrees
  rw [valueOutcome_element hv, valueOutcome_element hs, agrees, h.place_offset]

theorem agrees_behindAttribute {a : Attribute} (h : m.Stays) (skips : c.Skips d)
    (hr : d.rest = x :: t) (noSlash : d.rest.startsWith "/>" = false) (noEnd : x.is '>' = false)
    (inner : Reads false (.attribute a) d f e) (stops : e.Upto m.stop) (sees : m.SeesTag e)
    (agrees : m.Agrees ⟨.tag name start (region.extendTo e.offset), e⟩) :
    m.Agrees ⟨.tag name start region, c⟩ := by
  have coversD := h.covers (inner.upto.trans stops)
  obtain ⟨starts, _⟩ := inner.attribute_head hr
  obtain ⟨skips', ⟨s, hs⟩, _⟩ := relocates_mark (h.covers (skips.upto.trans coversD.upto)) skips hr
    starts (inner.accepts.1.advance_upto.trans stops)
  have inner' := h.reads inner rfl coversD stops (sees.seen (h.covers stops) a)
  simp only [Agrees] at agrees ⊢
  rw [tagOutcome_attribute skips hr noSlash noEnd,
    tagOutcome_attribute skips' hs (hs ▸ startsWith_eq_false rfl starts) noEnd]
  simp only [inner.attributeOutcome_eq, inner'.attributeOutcome_eq, Except.bind, h.place_offset,
    agrees]

theorem agrees_childrenBlock (h : m.Stays) (hr : c.rest = .scalar '{' :: t)
    (stops : (c.advance 1).Upto m.stop) (agrees : m.Agrees ⟨.block, c.advance 1⟩) :
    m.Agrees ⟨.children name start, c⟩ := by
  have covers := h.covers ((past_of_cons hr).upto.trans stops)
  obtain ⟨s, hs⟩ := covers.cons hr stops
  simp only [Agrees]
  rw [childrenOutcome_block hr, childrenOutcome_block hs, ← covers.place_advance (h.covers stops),
    agrees.block]

theorem agrees_childrenBehindBlock (h : m.Stays) (hr : c.rest = .scalar '{' :: t)
    (block : Reads false .block (c.advance 1) f d) (stops : (d.advance 1).Upto m.stop)
    (agrees : m.Agrees ⟨.children name start, d.advance 1⟩) :
    m.Agrees ⟨.children name start, c⟩ := by
  obtain ⟨u, hu⟩ := block.endsAt
  have stops1 := block.upto.trans ((past_of_cons hu).upto.trans stops)
  have covers := h.covers ((past_of_cons hr).upto.trans stops1)
  obtain ⟨s, hs⟩ := covers.cons hr stops1
  obtain ⟨block', _, advanced⟩ := h.readsBlock block (h.covers stops1) stops
  rw [covers.place_advance (h.covers stops1)] at block'
  simp only [Agrees] at agrees ⊢
  rw [childrenOutcome_block hr, childrenOutcome_block hs]
  simp only [block.blockOutcome_eq, block'.blockOutcome_eq, Except.bind, ← advanced, agrees]

/-- An element of children begins in front of the mark as soon as it is seen there how it
goes on. -/
theorem place_child (h : m.Stays) (hr : c.rest = .scalar '<' :: t)
    (skips : (c.advance 1).Skips d) (sees : m.SeesElement c) :
    (∃ s, (m.place c).rest = .scalar '<' :: s) ∧ ((m.place c).advance 1).Skips (m.place d) ∧
      (m.place d).rest.startsWith "/" = false := by
  obtain ⟨q, x, u, skipsQ, hq, starts, upto⟩ := sees
  obtain rfl := skips.unique skipsQ
  have stops := skips.upto.trans ((past_of_cons hq).upto.trans upto)
  have covers := h.covers ((past_of_cons hr).upto.trans stops)
  have notAtEnd : c.rest ≠ [] := by
    rw [hr]
    exact List.cons_ne_nil _ _
  obtain ⟨_, skips', ⟨s, hs⟩, _⟩ := relocates_behind covers notAtEnd skips hq starts upto
  exact ⟨covers.cons hr stops, skips', hs ▸ startsWith_eq_false rfl starts⟩

theorem agrees_childrenElement (h : m.Stays) (hr : c.rest = .scalar '<' :: t)
    (skips : (c.advance 1).Skips d) (opening : d.rest.startsWith "/" = false)
    (sees : m.SeesElement c) (agrees : m.Agrees ⟨.element, c⟩) :
    m.Agrees ⟨.children name start, c⟩ := by
  obtain ⟨⟨s, hs⟩, skips', opening'⟩ := place_child h hr skips sees
  simp only [Agrees] at agrees ⊢
  rw [childrenOutcome_element hr skips opening, childrenOutcome_element hs skips' opening', agrees]

theorem agrees_childrenBehindElement (h : m.Stays) (hr : c.rest = .scalar '<' :: t)
    (skips : (c.advance 1).Skips d) (opening : d.rest.startsWith "/" = false)
    (inner : Reads false .element c f e) (stops : e.Upto m.stop)
    (agrees : m.Agrees ⟨.children name start, e⟩) : m.Agrees ⟨.children name start, c⟩ := by
  obtain ⟨q, x, u, skipsQ, hq, starts, upto⟩ := inner.element_head
  obtain ⟨⟨s, hs⟩, skips', opening'⟩ :=
    place_child h hr skips ⟨q, x, u, skipsQ, hq, starts, upto.trans stops⟩
  have inner' := h.reads inner rfl (h.covers (inner.upto.trans stops)) stops trivial
  simp only [Agrees] at agrees ⊢
  rw [childrenOutcome_element hr skips opening, childrenOutcome_element hs skips' opening']
  simp only [inner.elementOutcome_eq, inner'.elementOutcome_eq, Except.bind, agrees]

theorem agrees_childrenText (h : m.Stays) (hr : c.rest = x :: t) (noBlock : x.is '{' = false)
    (noElement : x.is '<' = false)
    (stops : (c.advance (Text.countWhile (fun y => !(y.is '{' || y.is '<')) t + 1)).Upto m.stop)
    (agrees : m.Agrees ⟨.children name start,
      c.advance (Text.countWhile (fun y => !(y.is '{' || y.is '<')) t + 1)⟩) :
    m.Agrees ⟨.children name start, c⟩ := by
  have behind := (c.skipText hr).2
  have covers := h.covers (behind.upto.trans stops)
  have covers' := h.covers (behind.advance_upto.trans stops)
  obtain ⟨s, hs⟩ := covers.cons hr covers'.upto
  have rest : (c.advance 1).rest = t := by
    rw [advance, hr]
    rfl
  have rest' : (m.place (c.advance 1)).rest = s := by
    rw [covers.place_advance covers', advance, hs]
    rfl
  have run := h.countWhile_eq_of_upto covers' (p := fun y => !(y.is '{' || y.is '<')) (by
    rw [rest, advance_advance, Nat.add_comm]
    exact stops)
  rw [rest, rest'] at run
  simp only [Agrees] at agrees ⊢
  rw [childrenOutcome_text hr noBlock noElement, childrenOutcome_text hs noBlock noElement, run,
    ← covers.place_advance (h.covers stops), agrees]

end Elements

/-! ## All stages -/

theorem agrees_of_leads {a z : Stage} (h : m.Stays) (leads : Leads a z)
    (stops : z.place.Upto m.stop) (sees : m.Sees z) (agrees : m.Agrees z) : m.Agrees a := by
  cases leads with
  | codeTemplate skips lead => exact agrees_codeTemplate h skips lead stops agrees
  | behindTemplate skips lead inner => exact agrees_behindTemplate h skips lead inner stops agrees
  | codeOpen skips lead => exact agrees_codeOpen h skips lead stops agrees
  | codeShut skips lead => exact agrees_codeShut h skips lead stops agrees
  | codeElement skips lead => exact agrees_codeElement h skips lead sees agrees
  | behindElement skips lead inner => exact agrees_behindElement h skips lead inner stops agrees
  | codeAttributes skips lead found hs brace hr =>
    exact agrees_codeAttributes h skips lead found hs brace hr stops agrees
  | behindDeclaration skips lead inner =>
    exact agrees_behindDeclaration h skips lead inner stops sees agrees
  | codeToken skips lead => exact agrees_codeToken h skips lead stops sees agrees
  | templateEscape hr => exact agrees_templateEscape h hr stops agrees
  | templateBlock hr => exact agrees_templateBlock h hr stops agrees
  | templateBehindBlock hr block => exact agrees_templateBehindBlock h hr block stops agrees
  | templatePoint hr noEscape noEnd noBlock =>
    exact agrees_templatePoint h hr noEscape noEnd noBlock stops agrees
  | fragment notAtEnd skips hr => exact agrees_fragment h notAtEnd skips hr stops agrees
  | elementTag notAtEnd skips eq pos =>
    exact agrees_elementTag h notAtEnd skips eq pos stops sees agrees
  | elementChildren notAtEnd skips eq pos tag =>
    exact agrees_elementChildren h notAtEnd skips eq pos tag stops agrees
  | tagSpread skips hr => exact agrees_tagSpread h skips hr stops agrees
  | tagContainer skips eq pos skips' hr skipsV hv =>
    exact agrees_tagContainer h skips eq pos skips' hr skipsV hv stops agrees
  | tagElement skips eq pos skips' hr skipsV hv =>
    exact agrees_tagElement h skips eq pos skips' hr skipsV hv sees agrees
  | behindAttribute skips hr noSlash noEnd inner =>
    exact agrees_behindAttribute h skips hr noSlash noEnd inner stops sees agrees
  | childrenBlock hr => exact agrees_childrenBlock h hr stops agrees
  | childrenBehindBlock hr block => exact agrees_childrenBehindBlock h hr block stops agrees
  | childrenElement hr skips opening =>
    exact agrees_childrenElement h hr skips opening sees agrees
  | childrenBehindElement hr skips opening inner =>
    exact agrees_childrenBehindElement h hr skips opening inner stops agrees
  | childrenText hr noBlock noElement =>
    exact agrees_childrenText h hr noBlock noElement stops agrees

/-- Where the stage that reading comes to at the mark has the same outcome, every stage on
the way to it has. -/
theorem agrees_of_reaches {a z : Stage} (h : m.Stays) (reaches : Relation.ReflTransGen Leads a z)
    (stops : z.place.Upto m.stop) (sees : m.Sees z) (agrees : m.Agrees z) : m.Agrees a := by
  suffices both : m.Sees a ∧ m.Agrees a from both.2
  induction reaches using Relation.ReflTransGen.head_induction_on with
  | refl => exact ⟨sees, agrees⟩
  | head step behind ih =>
    have stops := (upto_of_leads behind).trans stops
    exact ⟨sees_of_leads step stops ih.1, agrees_of_leads h step stops ih.1 ih.2⟩

end Document

end StyleBinding
