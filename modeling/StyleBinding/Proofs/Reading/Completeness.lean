import StyleBinding.Proofs.Reading.Layout

/-!
# Every reading is what a reader accepts

The other direction of soundness: where the rules of `Reads` read a stretch, the
reader of that part accepts it and finds the same. With it, a source is parsed as
soon as it is known how it is read.
-/

namespace StyleBinding

namespace Document

open Cursor

/-- The reader of a part accepts a stretch and finds what is said. -/
def Part.Accepts : Part → Cursor → Found → Cursor → Prop
  | .code nested opened prev, c, f, d => ∃ h, readCode nested opened prev c = .ok ⟨f, d, h⟩
  | .template, c, f, d => ∀ start, ∃ h, readTemplate start c = .ok ⟨f, d, h⟩
  | .declaration k, c, f, d => ∀ hk, ∃ h, readDeclaration c ⟨k, hk⟩ = .ok ⟨f, d, h⟩
  | .importAttributes, c, f, d => ∃ h, readImportAttributes c = .ok ⟨f, d, h⟩
  | .element, c, f, d => ∃ h, readElement c = .ok ⟨f.elements, d, h⟩
  | .tag before after attributes selfClosing, c, f, d => ∀ name start, ∃ h,
    readTag name start before c = .ok ⟨⟨attributes, after, f.elements, selfClosing⟩, d, h⟩
  | .attribute a, c, f, d => ∃ h, readAttribute c = .ok ⟨(a, f.elements), d, h⟩
  | .value v, c, f, d => ∃ h, readValue c = .ok ⟨(v, f.elements), d, h⟩
  | .children name, c, f, d => ∀ start, ∃ h, readChildren name start c = .ok ⟨f.elements, d, h⟩

/-! ## Code -/

section Code

variable {nested : Bool} {opened : List Opened} {prev : Previous} {c d e k : Cursor} {f g : Found}

theorem accepts_codeEnd (skips : c.Skips d) (atEnd : d.rest = []) :
    Part.Accepts (.code false [] prev) c {} d := by
  obtain ⟨hd, skips⟩ := skips
  refine ⟨hd, ?_⟩
  rw [readCode]
  simp only [skips]
  split
  · rfl
  · rename_i hr
    rw [atEnd] at hr
    cases hr

theorem accepts_codeClose (skips : c.Skips d) (lead : Lead.At false prev d (.closer .curly)) :
    Part.Accepts (.code true [] prev) c {} d := by
  obtain ⟨hd, skips⟩ := skips
  obtain ⟨x, t, hr, lead⟩ := lead
  refine ⟨hd, ?_⟩
  rw [readCode]
  simp only [skips]
  split
  · rename_i atEnd
    rw [hr] at atEnd
    cases atEnd
  · rename_i hr'
    obtain ⟨rfl, rfl⟩ := List.cons.inj (hr.symm.trans hr')
    simp only [Bool.not_true, Bool.false_and, lead, Bool.true_and, decide_true, if_true]

theorem accepts_codeTemplate (skips : c.Skips d)
    (lead : Lead.At (!nested && opened.isEmpty) prev d .template)
    (inner : Part.Accepts .template (d.advance 1) f e)
    (rest : Part.Accepts (.code nested opened .value) e g k) :
    Part.Accepts (.code nested opened prev) c (f ++ g) k := by
  obtain ⟨hd, skips⟩ := skips
  obtain ⟨x, t, hr, lead⟩ := lead
  obtain ⟨he, inner⟩ := inner d.offset
  obtain ⟨hk, rest⟩ := rest
  refine ⟨(hd.trans_past ((past_of_cons hr).trans he)).upto.trans hk, ?_⟩
  rw [readCode]
  simp only [skips]
  split
  · rename_i atEnd
    rw [hr] at atEnd
    cases atEnd
  · rename_i hr'
    obtain ⟨rfl, rfl⟩ := List.cons.inj (hr.symm.trans hr')
    simp only [lead, inner, rest]
    rfl

theorem accepts_codeOpen {b : Bracket} (skips : c.Skips d)
    (lead : Lead.At (!nested && opened.isEmpty) prev d (.opener b))
    (rest : Part.Accepts (.code nested (⟨b, b = .round && prev.opensHead⟩ :: opened)
      (.mark b.opener.toString)) (d.advance 1) g k) :
    Part.Accepts (.code nested opened prev) c g k := by
  obtain ⟨hd, skips⟩ := skips
  obtain ⟨x, t, hr, lead⟩ := lead
  obtain ⟨hk, rest⟩ := rest
  refine ⟨(hd.trans_past (past_of_cons hr)).upto.trans hk, ?_⟩
  rw [readCode]
  simp only [skips]
  split
  · rename_i atEnd
    rw [hr] at atEnd
    cases atEnd
  · rename_i hr'
    obtain ⟨rfl, rfl⟩ := List.cons.inj (hr.symm.trans hr')
    simp only [lead, rest]
    rfl

theorem accepts_codeShut {o : Opened} (skips : c.Skips d)
    (lead : Lead.At (!nested && (o :: opened).isEmpty) prev d (.closer o.bracket))
    (rest : Part.Accepts (.code nested opened
      (if o.head then .head else .mark o.bracket.closer.toString)) (d.advance 1) g k) :
    Part.Accepts (.code nested (o :: opened) prev) c g k := by
  obtain ⟨hd, skips⟩ := skips
  obtain ⟨x, t, hr, lead⟩ := lead
  obtain ⟨hk, rest⟩ := rest
  refine ⟨(hd.trans_past (past_of_cons hr)).upto.trans hk, ?_⟩
  rw [readCode]
  simp only [skips]
  split
  · rename_i atEnd
    rw [hr] at atEnd
    cases atEnd
  · rename_i hr'
    obtain ⟨rfl, rfl⟩ := List.cons.inj (hr.symm.trans hr')
    simp only [lead, if_pos, rest]
    rfl

theorem accepts_codeElement (skips : c.Skips d)
    (lead : Lead.At (!nested && opened.isEmpty) prev d .element)
    (inner : Part.Accepts .element d f e) (rest : Part.Accepts (.code nested opened .value) e g k)
    (only : f.imports = []) : Part.Accepts (.code nested opened prev) c (f ++ g) k := by
  obtain ⟨hd, skips⟩ := skips
  obtain ⟨x, t, hr, lead⟩ := lead
  obtain ⟨he, inner⟩ := inner
  obtain ⟨hk, rest⟩ := rest
  obtain ⟨imports, elements⟩ := f
  obtain rfl : imports = [] := only
  refine ⟨(hd.trans_past he).upto.trans hk, ?_⟩
  rw [readCode]
  simp only [skips]
  split
  · rename_i atEnd
    rw [hr] at atEnd
    cases atEnd
  · rename_i hr'
    obtain ⟨rfl, rfl⟩ := List.cons.inj (hr.symm.trans hr')
    simp only [lead, inner, rest]
    rfl

theorem accepts_codeDeclaration {keyword : { k : Cursor // d.Past k }} (skips : c.Skips d)
    (lead : Lead.At (!nested && opened.isEmpty) prev d (.declaration keyword))
    (inner : Part.Accepts (.declaration keyword.1) d f e)
    (rest : Part.Accepts (.code nested opened (.mark ";")) e g k) :
    Part.Accepts (.code nested opened prev) c (f ++ g) k := by
  obtain ⟨hd, skips⟩ := skips
  obtain ⟨x, t, hr, lead⟩ := lead
  obtain ⟨he, inner⟩ := inner keyword.2
  obtain ⟨hk, rest⟩ := rest
  refine ⟨(hd.trans_past he).upto.trans hk, ?_⟩
  rw [readCode]
  simp only [skips]
  split
  · rename_i atEnd
    rw [hr] at atEnd
    cases atEnd
  · rename_i hr'
    obtain ⟨rfl, rfl⟩ := List.cons.inj (hr.symm.trans hr')
    simp only [lead, inner, rest]
    rfl

theorem accepts_codeToken {prev' : Previous} {stop : { e : Cursor // d.Past e }}
    (skips : c.Skips d) (lead : Lead.At (!nested && opened.isEmpty) prev d (.token stop prev'))
    (rest : Part.Accepts (.code nested opened prev') stop.1 g k) :
    Part.Accepts (.code nested opened prev) c g k := by
  obtain ⟨hd, skips⟩ := skips
  obtain ⟨x, t, hr, lead⟩ := lead
  obtain ⟨hk, rest⟩ := rest
  refine ⟨(hd.trans_past stop.2).upto.trans hk, ?_⟩
  rw [readCode]
  simp only [skips]
  split
  · rename_i atEnd
    rw [hr] at atEnd
    cases atEnd
  · rename_i hr'
    obtain ⟨rfl, rfl⟩ := List.cons.inj (hr.symm.trans hr')
    simp only [lead, rest]
    rfl

theorem readBlock_of_accepts (inner : Part.Accepts .block c f d) (closes : Part.EndsAt .block d) :
    ∃ h h', readBlock c = .ok ⟨(f, ⟨d, h⟩), d.advance 1, h'⟩ := by
  obtain ⟨h, inner⟩ := inner
  obtain ⟨t, ht⟩ := closes
  refine ⟨h, h.trans_past (past_of_cons ht), ?_⟩
  rw [readBlock]
  simp only [inner]
  split
  · rename_i atEnd
    rw [ht] at atEnd
    cases atEnd
  · rfl

end Code

/-! ## Templates -/

section Template

variable {c d e : Cursor} {t : Text} {f g : Found}

theorem accepts_templateEnd (hr : c.rest = .scalar '\x60' :: t) :
    Part.Accepts .template c {} (c.advance 1) := by
  intro start
  refine ⟨past_of_cons hr, ?_⟩
  rw [readTemplate]
  split
  · rename_i atEnd
    rw [hr] at atEnd
    cases atEnd
  · rename_i hr'
    obtain ⟨rfl, rfl⟩ := List.cons.inj (hr.symm.trans hr')
    rw [if_neg (by decide), if_pos (by decide)]

theorem accepts_templateEscape {x : CodePoint} (hr : c.rest = .scalar '\\' :: x :: t)
    (rest : Part.Accepts .template (c.advance 2) g d) : Part.Accepts .template c g d := by
  intro start
  obtain ⟨hd, rest⟩ := rest start
  have past : c.Past (c.advance 2) := past_advance (by omega) (by simp [hr])
  refine ⟨past.upto.trans_past hd, ?_⟩
  rw [readTemplate]
  split
  · rename_i atEnd
    rw [hr] at atEnd
    cases atEnd
  · rename_i hr'
    obtain ⟨rfl, rfl⟩ := List.cons.inj (hr.symm.trans hr')
    rw [if_pos (by decide)]
    simp only [rest]
    rfl

theorem accepts_templateBlock (hr : c.rest = .scalar '$' :: .scalar '{' :: t)
    (inner : Part.Accepts .block (c.advance 2) f d) (closes : Part.EndsAt .block d)
    (rest : Part.Accepts .template (d.advance 1) g e) : Part.Accepts .template c (f ++ g) e := by
  intro start
  obtain ⟨hd, hd', inner⟩ := readBlock_of_accepts inner closes
  obtain ⟨he, rest⟩ := rest start
  have past : c.Past (c.advance 2) := past_advance (by omega) (by simp [hr])
  refine ⟨(past.trans hd').trans he, ?_⟩
  rw [readTemplate]
  split
  · rename_i atEnd
    rw [hr] at atEnd
    cases atEnd
  · rename_i hr'
    obtain ⟨rfl, rfl⟩ := List.cons.inj (hr.symm.trans hr')
    have opens : c.rest.startsWith "$\x7b" = true := by
      rw [hr]
      rfl
    rw [if_neg (by decide), if_neg (by decide), dif_pos opens]
    simp only [inner, rest]
    rfl

theorem accepts_templatePoint {x : CodePoint} (hr : c.rest = x :: t) (noEscape : x.is '\\' = false)
    (noEnd : x.is '\x60' = false) (noBlock : c.rest.startsWith "$\x7b" = false)
    (rest : Part.Accepts .template (c.advance 1) g d) : Part.Accepts .template c g d := by
  intro start
  obtain ⟨hd, rest⟩ := rest start
  refine ⟨(past_of_cons hr).upto.trans_past hd, ?_⟩
  rw [readTemplate]
  split
  · rename_i atEnd
    rw [hr] at atEnd
    cases atEnd
  · rename_i hr'
    obtain ⟨rfl, rfl⟩ := List.cons.inj (hr.symm.trans hr')
    rw [if_neg (by simp [noEscape]), if_neg (by simp [noEnd]), dif_neg (by simp [noBlock])]
    simp only [rest]
    rfl

end Template

/-! ## Declarations -/

section Declaration

variable {c k q e d b : Cursor} {t : Text} {f : Found}

theorem isQuote_of_stringLength? {t : Text} {n : Nat} (h : Lexeme.stringLength? t = some n) :
    ∃ x u, t = x :: u ∧ Lexeme.isQuote x = true := by
  unfold Lexeme.stringLength? at h
  split at h
  · exact ⟨_, _, rfl, by decide⟩
  · exact ⟨_, _, rfl, by decide⟩
  · cases h

theorem not_isQuote_of_isClauseMark {x : CodePoint} (h : isClauseMark x = true) :
    Lexeme.isQuote x = false := by
  simp only [isClauseMark, Bool.or_eq_true, CodePoint.is_iff] at h
  rcases h with ((rfl | rfl) | rfl) | rfl <;> rfl

/-- An identifier starts with neither a quote nor a mark. -/
theorem of_nameLength_pos {x : CodePoint} {t : Text} (h : 0 < Lexeme.nameLength (x :: t)) :
    Lexeme.isQuote x = false ∧ isClauseMark x = false := by
  have isName : x.isName = true := by
    simp only [Lexeme.nameLength, Text.countWhile] at h
    split at h
    · cases h
    · split at h
      · assumption
      · cases h
  have marks : CodePoint.omits (·.isName) ['\'', '"', '{', '}', '*', ','] = true := by decide
  have others (y : Char) (member : y ∈ ['\'', '"', '{', '}', '*', ',']) : x.is y = false := by
    rw [Bool.eq_false_iff]
    intro same
    rw [CodePoint.is_iff.1 same, CodePoint.eq_false_of_omits marks member] at isName
    cases isName
  simp [Lexeme.isQuote, isClauseMark, others]

/-- The search for the literal of a declaration finds it. -/
theorem findPath_of_findsLiteral {depth : Int} {seen : Bool} {last : Text}
    (h : FindsLiteral depth seen last c q) (start : Nat) :
    ∃ h, findPath start depth seen last c = .ok ⟨q, h⟩ := by
  induction h with
  | literal skips isString _ ih =>
    obtain ⟨hd, skips⟩ := skips
    obtain ⟨hq, found⟩ := ih
    have bounds := Lexeme.stringLength?_bounds isString
    obtain ⟨x, u, hr, isQuote⟩ := isQuote_of_stringLength? isString
    refine ⟨hd.trans ((past_advance bounds.1 bounds.2).upto.trans hq), ?_⟩
    rw [findPath]
    simp only [skips]
    split
    · rename_i atEnd
      rw [hr] at atEnd
      cases atEnd
    · rename_i hr'
      obtain ⟨rfl, rfl⟩ := List.cons.inj (hr.symm.trans hr')
      rw [if_pos isQuote]
      split
      · rename_i none
        rw [isString] at none
        cases none
      · rename_i m isString'
        rw [isString] at isString'
        cases isString'
        simp only [found]
  | mark skips hr isMark _ ih =>
    obtain ⟨hd, skips⟩ := skips
    obtain ⟨hq, found⟩ := ih
    refine ⟨hd.trans ((past_of_cons hr).upto.trans hq), ?_⟩
    rw [findPath]
    simp only [skips]
    split
    · rename_i atEnd
      rw [hr] at atEnd
      cases atEnd
    · rename_i hr'
      obtain ⟨rfl, rfl⟩ := List.cons.inj (hr.symm.trans hr')
      have noQuote := not_isQuote_of_isClauseMark isMark
      unfold isClauseMark at isMark
      unfold depthBehind at found
      rw [if_neg (by simp [noQuote]), if_pos isMark]
      simp only [found]
  | word skips eq pos goesOn _ ih =>
    obtain ⟨hd, skips⟩ := skips
    obtain ⟨hq, found⟩ := ih
    subst eq
    refine ⟨hd.trans ((upto_advance (Lexeme.nameLength_le _)).trans hq), ?_⟩
    rw [findPath]
    simp only [skips]
    split
    · rename_i atEnd
      rw [atEnd] at pos
      cases pos
    · rename_i hr
      obtain ⟨noQuote, noMark⟩ := of_nameLength_pos (hr ▸ pos)
      unfold isClauseMark at noMark
      unfold EndsClause at goesOn
      rw [if_neg (by simp [noQuote]), if_neg (by simp [noMark]), dif_pos pos, if_neg goesOn]
      simp only [found]
  | keyword skips eq pos ends skips' isQuote =>
    obtain ⟨hd, skips⟩ := skips
    obtain ⟨hq, skips'⟩ := skips'
    subst eq
    refine ⟨hd.trans ((upto_advance (Lexeme.nameLength_le _)).trans hq), ?_⟩
    rw [findPath]
    simp only [skips]
    split
    · rename_i atEnd
      rw [atEnd] at pos
      cases pos
    · rename_i hr
      obtain ⟨noQuote, noMark⟩ := of_nameLength_pos (hr ▸ pos)
      unfold isClauseMark at noMark
      unfold EndsClause at ends
      rw [if_neg (by simp [noQuote]), if_neg (by simp [noMark]), dif_pos pos, if_pos ends]
      simp only [skips', if_pos isQuote]

theorem accepts_declaration {n : Nat} {clause : ImportClause} {ofTypes : Bool} (hk : c.Past k)
    (hq : k.Upto q) (hs : Lexeme.stringLength? q.rest = some n) (he : c.Upto e.skipSemicolon.1)
    (found : k.FindsPath q) (inner : Part.Accepts .importAttributes (q.advance n) f e)
    (means : readClause (c.rest.take (q.offset + n - c.offset)) (q.rest.take n) c.offset =
      .ok (clause, ofTypes)) :
    Part.Accepts (.declaration k) c
      ({ imports := [{
          span := c.spanTo e.skipSemicolon.1 he
          gap := k.spanTo q hq
          path := q.spanTo (q.advance n) (upto_advance (Lexeme.stringLength?_bounds hs).2)
          clause
          ofTypes }] } ++ f) e.skipSemicolon.1 := by
  intro hk'
  obtain ⟨p, ⟨hp, skips⟩, start⟩ := found
  obtain ⟨hf, inner⟩ := inner
  have bounds := Lexeme.stringLength?_bounds hs
  have path : ∃ h : p.Upto q, (if p.rest.head?.any Lexeme.isQuote then .ok ⟨p, .refl p⟩
      else findPath c.offset 0 false [] p) = (.ok ⟨q, h⟩ : Except Refusal _) := by
    rcases start with ⟨isQuote, rfl⟩ | ⟨noQuote, finds⟩
    · exact ⟨.refl _, if_pos isQuote⟩
    · obtain ⟨h, found⟩ := findPath_of_findsLiteral finds c.offset
      exact ⟨h, by rw [noQuote, if_neg Bool.false_ne_true, found]⟩
  obtain ⟨hpq, path⟩ := path
  refine ⟨((hk.trans_upto hq).trans (past_advance bounds.1 bounds.2)).trans_upto
    (hf.trans e.skipSemicolon.2), ?_⟩
  rw [readDeclaration]
  simp only [skips, path]
  split
  · rename_i none
    rw [hs] at none
    cases none
  · rename_i m isString
    rw [hs] at isString
    cases isString
    simp only [inner, means]

theorem accepts_attributesNone (lacks : c.LacksAttributes) :
    Part.Accepts .importAttributes c {} c := by
  refine ⟨.refl c, ?_⟩
  rw [readImportAttributes]
  rcases lacks with ⟨d, ⟨hd, skips⟩, noWord⟩ | ⟨b, ⟨d, ⟨hd, skips⟩, word, ⟨hb, skips'⟩⟩, noBrace⟩
  · unfold AtAttributeWord at noWord
    simp only [skips, if_neg noWord]
  · unfold AtAttributeWord at word
    simp only [skips, if_pos word, skips']
    split
    · rfl
    · rename_i x u hr
      rw [if_neg]
      intro isBrace
      rw [hr, CodePoint.is_iff.1 isBrace] at noBrace
      exact noBrace rfl

theorem accepts_attributesBlock (brace : c.FindsBrace b) (hr : b.rest = .scalar '{' :: t)
    (inner : Part.Accepts .block (b.advance 1) f d) (closes : Part.EndsAt .block d) :
    Part.Accepts .importAttributes c f (d.advance 1) := by
  obtain ⟨a, ⟨ha, skips⟩, word, ⟨hb, skips'⟩⟩ := brace
  obtain ⟨hd, hd', inner⟩ := readBlock_of_accepts inner closes
  unfold AtAttributeWord at word
  refine ⟨ha.trans ((upto_advance (Lexeme.nameLength_le _)).trans
    (hb.trans ((past_of_cons hr).trans hd').upto)), ?_⟩
  rw [readImportAttributes]
  simp only [skips, if_pos word, skips']
  split
  · rename_i atEnd
    rw [hr] at atEnd
    cases atEnd
  · rename_i hr'
    obtain ⟨rfl, rfl⟩ := List.cons.inj (hr.symm.trans hr')
    rw [if_pos (by decide)]
    simp only [inner]

end Declaration

/-! ## Elements -/

section Elements

variable {name : Text} {c d e k q v : Cursor} {n : Nat} {t : Text} {f g : Found}

theorem tagNameLength_pos {x : CodePoint} {u : Text} (h : 0 < Lexeme.tagNameLength (x :: u)) :
    x.is '>' = false := by
  rw [Bool.eq_false_iff]
  intro isEnd
  rw [CodePoint.is_iff.1 isEnd] at h
  exact Nat.lt_irrefl 0 h

theorem accepts_fragment (he : c.Upto e) (notAtEnd : c.rest ≠ []) (skips : (c.advance 1).Skips d)
    (hr : d.rest = .scalar '>' :: t) (inner : Part.Accepts (.children []) (d.advance 1) f e) :
    Part.Accepts .element c
      ({ elements := [{ name := [], span := c.spanTo e he, region := .point d.offset }] } ++ f)
      e := by
  obtain ⟨hd, skips⟩ := skips
  obtain ⟨h, inner⟩ := inner c.offset
  obtain ⟨y, u, hy⟩ := List.exists_cons_of_ne_nil notAtEnd
  refine ⟨((past_of_cons hy).trans_upto hd).trans ((past_of_cons hr).trans h), ?_⟩
  rw [readElement]
  split
  · contradiction
  simp only [skips]
  split
  · rename_i atEnd
    rw [hr] at atEnd
    cases atEnd
  · rename_i hr'
    obtain ⟨rfl, rfl⟩ := List.cons.inj (hr.symm.trans hr')
    rw [if_pos (by decide)]
    simp only [inner]
    rfl

theorem accepts_elementClosed {region : Span} {attributes : List Attribute} (he : c.Upto e)
    (notAtEnd : c.rest ≠ []) (skips : (c.advance 1).Skips d) (eq : n = Lexeme.tagNameLength d.rest)
    (pos : 0 < n)
    (tag : Part.Accepts (.tag (.point (d.offset + n)) region attributes true) (d.advance n) f e) :
    Part.Accepts .element c
      ({ elements := [{
          name := d.rest.take n
          span := c.spanTo e he
          region
          selfClosing := true
          parsed := attributes }] } ++ f) e := by
  subst eq
  obtain ⟨hd, skips⟩ := skips
  obtain ⟨h, tag⟩ := tag (d.rest.take (Lexeme.tagNameLength d.rest)) c.offset
  obtain ⟨y, u, hy⟩ := List.exists_cons_of_ne_nil notAtEnd
  have behind := past_advance pos (Lexeme.tagNameLength_le d.rest)
  refine ⟨((past_of_cons hy).trans_upto hd).trans (behind.trans h), ?_⟩
  rw [readElement]
  split
  · contradiction
  simp only [skips]
  split
  · rename_i atEnd
    rw [atEnd] at pos
    cases pos
  · rename_i hr
    rw [if_neg (by simp [tagNameLength_pos (hr ▸ pos)]), dif_pos pos]
    simp only [Cursor.advance] at tag ⊢
    simp only [tag]
    rfl

theorem accepts_elementOpen {region : Span} {attributes : List Attribute} (hk : c.Upto k)
    (notAtEnd : c.rest ≠ []) (skips : (c.advance 1).Skips d) (eq : n = Lexeme.tagNameLength d.rest)
    (pos : 0 < n)
    (tag : Part.Accepts (.tag (.point (d.offset + n)) region attributes false) (d.advance n) f e)
    (inner : Part.Accepts (.children (d.rest.take n)) e g k) :
    Part.Accepts .element c
      ({ elements := [{
          name := d.rest.take n
          span := c.spanTo k hk
          region
          parsed := attributes }] } ++ (f ++ g)) k := by
  subst eq
  obtain ⟨hd, skips⟩ := skips
  obtain ⟨h, tag⟩ := tag (d.rest.take (Lexeme.tagNameLength d.rest)) c.offset
  obtain ⟨h', inner⟩ := inner c.offset
  obtain ⟨y, u, hy⟩ := List.exists_cons_of_ne_nil notAtEnd
  have behind := past_advance pos (Lexeme.tagNameLength_le d.rest)
  refine ⟨((past_of_cons hy).trans_upto hd).trans ((behind.trans h).trans h'), ?_⟩
  rw [readElement]
  split
  · contradiction
  simp only [skips]
  split
  · rename_i atEnd
    rw [atEnd] at pos
    cases pos
  · rename_i hr
    rw [if_neg (by simp [tagNameLength_pos (hr ▸ pos)]), dif_pos pos]
    simp only [Cursor.advance] at tag ⊢
    simp only [tag, inner]
    rfl

/-! ## Tags -/

variable {region before after : Span} {a : Attribute} {attributes : List Attribute}
  {selfClosing : Bool}

theorem accepts_tagClosed (skips : c.Skips d) (closes : d.rest.startsWith "/>" = true) :
    Part.Accepts (.tag region region [] true) c {} (d.advance 2) := by
  obtain ⟨hd, skips⟩ := skips
  intro name start
  have past : d.Past (d.advance 2) := past_advance (by decide) (le_length_of_startsWith closes)
  refine ⟨hd.trans_past past, ?_⟩
  rw [readTag]
  simp only [skips]
  split
  · rename_i atEnd
    rw [atEnd] at closes
    cases closes
  · rw [dif_pos closes]

theorem accepts_tagOpen (skips : c.Skips d) (hr : d.rest = .scalar '>' :: t) :
    Part.Accepts (.tag region region [] false) c {} (d.advance 1) := by
  obtain ⟨hd, skips⟩ := skips
  intro name start
  refine ⟨hd.trans_past (past_of_cons hr), ?_⟩
  rw [readTag]
  simp only [skips]
  split
  · rename_i atEnd
    rw [hr] at atEnd
    cases atEnd
  · rename_i hr'
    obtain ⟨rfl, rfl⟩ := List.cons.inj (hr.symm.trans hr')
    have open' : d.rest.startsWith "/>" = false := by
      rw [hr]
      rfl
    rw [dif_neg (by simp [open']), if_pos (by decide)]

theorem accepts_tagAttribute {x : CodePoint} (skips : c.Skips d) (hr : d.rest = x :: t)
    (noSlash : d.rest.startsWith "/>" = false) (noEnd : x.is '>' = false)
    (head : Part.Accepts (.attribute a) d f e)
    (rest : Part.Accepts (.tag (before.extendTo e.offset) after attributes selfClosing) e g k) :
    Part.Accepts (.tag before after (a :: attributes) selfClosing) c (f ++ g) k := by
  obtain ⟨hd, skips⟩ := skips
  obtain ⟨he, head⟩ := head
  intro name start
  obtain ⟨hk, rest⟩ := rest name start
  refine ⟨hd.trans_past (he.trans hk), ?_⟩
  rw [readTag]
  simp only [skips]
  split
  · rename_i atEnd
    rw [hr] at atEnd
    cases atEnd
  · rename_i hr'
    obtain ⟨rfl, rfl⟩ := List.cons.inj (hr.symm.trans hr')
    rw [dif_neg (by simp [noSlash]), if_neg (by simp [noEnd])]
    simp only [head, rest]
    rfl

/-! ## Attributes -/

theorem attributeNameLength_pos {x : CodePoint} {u : Text}
    (h : 0 < Lexeme.attributeNameLength (x :: u)) : x.is '{' = false := by
  rw [Bool.eq_false_iff]
  intro isBrace
  rw [CodePoint.is_iff.1 isBrace] at h
  exact Nat.lt_irrefl 0 h

theorem accepts_attributeSpread (hd : c.Upto (d.advance 1)) (hr : c.rest = .scalar '{' :: t)
    (inner : Part.Accepts .block (c.advance 1) f d) (closes : Part.EndsAt .block d) :
    Part.Accepts (.attribute ⟨none, .written (c.spanTo _ hd) none none⟩) c f (d.advance 1) := by
  obtain ⟨h, h', inner⟩ := readBlock_of_accepts inner closes
  refine ⟨(past_of_cons hr).trans h', ?_⟩
  rw [readAttribute]
  split
  · rename_i atEnd
    rw [hr] at atEnd
    cases atEnd
  · rename_i hr'
    obtain ⟨rfl, rfl⟩ := List.cons.inj (hr.symm.trans hr')
    rw [if_pos (by decide)]
    simp only [inner]

theorem accepts_attributeName (hn : c.Upto (c.advance n))
    (eq : n = Lexeme.attributeNameLength c.rest) (pos : 0 < n) (skips : (c.advance n).Skips q)
    (noValue : q.rest.head? ≠ some (.scalar '=')) :
    Part.Accepts (.attribute ⟨some (c.rest.take n),
      .written (c.spanTo _ hn) (some (c.rest.take n)) none⟩) c {} (c.advance n) := by
  subst eq
  obtain ⟨hq, skips⟩ := skips
  refine ⟨past_advance pos (Lexeme.attributeNameLength_le _), ?_⟩
  rw [readAttribute]
  split
  · rename_i atEnd
    rw [atEnd] at pos
    cases pos
  · rename_i hr
    rw [if_neg (by simp [attributeNameLength_pos (hr ▸ pos)]), dif_pos pos]
    simp only [skips]
    split
    · rfl
    · rename_i y u hy
      rw [if_neg]
      intro isValue
      rw [hy, CodePoint.is_iff.1 isValue] at noValue
      exact noValue rfl

theorem accepts_attributeValue {w : AttributeValue} (he : c.Upto e)
    (eq : n = Lexeme.attributeNameLength c.rest) (pos : 0 < n) (skips : (c.advance n).Skips q)
    (hr : q.rest = .scalar '=' :: t) (skips' : (q.advance 1).Skips v)
    (value : Part.Accepts (.value w) v f e) :
    Part.Accepts (.attribute ⟨some (c.rest.take n),
      .written (c.spanTo e he) (some (c.rest.take n)) (some w)⟩) c f e := by
  subst eq
  obtain ⟨hq, skips⟩ := skips
  obtain ⟨hv, skips'⟩ := skips'
  obtain ⟨h, value⟩ := value
  have past := past_advance pos (Lexeme.attributeNameLength_le c.rest)
  refine ⟨past.trans (hq.trans_past ((past_of_cons hr).trans (hv.trans_past h))), ?_⟩
  rw [readAttribute]
  split
  · rename_i atEnd
    rw [atEnd] at pos
    cases pos
  · rename_i hc
    rw [if_neg (by simp [attributeNameLength_pos (hc ▸ pos)]), dif_pos pos]
    simp only [skips]
    split
    · rename_i atEnd
      rw [hr] at atEnd
      cases atEnd
    · rename_i hr'
      obtain ⟨rfl, rfl⟩ := List.cons.inj (hr.symm.trans hr')
      rw [if_pos (by decide)]
      simp only [skips', value]

theorem accepts_valueQuoted {x : CodePoint} (hn : c.Upto (c.advance (n + 2)))
    (hr : c.rest = x :: t) (isQuote : Lexeme.isQuote x = true)
    (closes : Text.offsetOf? [x] t = some n) :
    Part.Accepts (.value (.quoted (c.spanTo _ hn))) c {} (c.advance (n + 2)) := by
  have le := Text.offsetOf?_le closes
  simp only [List.length_singleton] at le
  refine ⟨past_advance (by omega) (by rw [hr, List.length_cons]; omega), ?_⟩
  rw [readValue]
  split
  · rename_i atEnd
    rw [hr] at atEnd
    cases atEnd
  · rename_i hr'
    obtain ⟨rfl, rfl⟩ := List.cons.inj (hr.symm.trans hr')
    rw [if_pos isQuote]
    split
    · rename_i none
      rw [closes] at none
      cases none
    · rename_i m closes'
      rw [closes] at closes'
      cases closes'
      rfl

theorem accepts_valueContainer (hd : (c.advance 1).Upto d) (hc : c.Upto (d.advance 1))
    (hr : c.rest = .scalar '{' :: t) (inner : Part.Accepts .block (c.advance 1) f d)
    (closes : Part.EndsAt .block d) :
    Part.Accepts (.value (.container (c.spanTo _ hc) ((c.advance 1).spanTo d hd))) c f
      (d.advance 1) := by
  obtain ⟨h, h', inner⟩ := readBlock_of_accepts inner closes
  refine ⟨(past_of_cons hr).trans h', ?_⟩
  rw [readValue]
  split
  · rename_i atEnd
    rw [hr] at atEnd
    cases atEnd
  · rename_i hr'
    obtain ⟨rfl, rfl⟩ := List.cons.inj (hr.symm.trans hr')
    rw [if_neg (by decide), if_pos (by decide)]
    simp only [inner]

theorem accepts_valueElement (hd : c.Upto d) (hr : c.rest = .scalar '<' :: t)
    (inner : Part.Accepts .element c f d) :
    Part.Accepts (.value (.element (c.spanTo d hd))) c f d := by
  obtain ⟨h, inner⟩ := inner
  refine ⟨h, ?_⟩
  rw [readValue]
  split
  · rename_i atEnd
    rw [hr] at atEnd
    cases atEnd
  · rename_i hr'
    obtain ⟨rfl, rfl⟩ := List.cons.inj (hr.symm.trans hr')
    rw [if_neg (by decide), if_neg (by decide), if_pos (by decide)]
    simp only [inner]
    rfl

/-! ## Children -/

theorem accepts_childrenBlock (hr : c.rest = .scalar '{' :: t)
    (inner : Part.Accepts .block (c.advance 1) f d) (closes : Part.EndsAt .block d)
    (rest : Part.Accepts (.children name) (d.advance 1) g e) :
    Part.Accepts (.children name) c (f ++ g) e := by
  intro start
  obtain ⟨h, h', inner⟩ := readBlock_of_accepts inner closes
  obtain ⟨he, rest⟩ := rest start
  refine ⟨((past_of_cons hr).trans h').trans he, ?_⟩
  rw [readChildren]
  split
  · rename_i atEnd
    rw [hr] at atEnd
    cases atEnd
  · rename_i hr'
    obtain ⟨rfl, rfl⟩ := List.cons.inj (hr.symm.trans hr')
    rw [if_pos (by decide)]
    simp only [inner, rest]
    rfl

theorem accepts_childrenClose (hr : c.rest = .scalar '<' :: t) (skips : (c.advance 1).Skips d)
    (closing : d.rest.startsWith "/" = true) (stop : Text.offsetOf? ">" d.rest = some n)
    (same : Text.trim ((d.rest.take n).drop 1) = name) :
    Part.Accepts (.children name) c {} (d.advance (n + 1)) := by
  intro start
  obtain ⟨hd, skips⟩ := skips
  have past : d.Past (d.advance (n + 1)) := past_advance (by omega) (Text.offsetOf?_le stop)
  refine ⟨((past_of_cons hr).trans_upto hd).trans past, ?_⟩
  rw [readChildren]
  split
  · rename_i atEnd
    rw [hr] at atEnd
    cases atEnd
  · rename_i hr'
    obtain ⟨rfl, rfl⟩ := List.cons.inj (hr.symm.trans hr')
    rw [if_neg (by decide), if_pos (by decide)]
    simp only [skips, if_pos closing]
    split
    · rename_i none
      rw [stop] at none
      cases none
    · rename_i m stop'
      rw [stop] at stop'
      cases stop'
      rw [if_pos same]

theorem accepts_childrenElement (hr : c.rest = .scalar '<' :: t) (skips : (c.advance 1).Skips d)
    (opening : d.rest.startsWith "/" = false) (inner : Part.Accepts .element c f e)
    (rest : Part.Accepts (.children name) e g k) :
    Part.Accepts (.children name) c (f ++ g) k := by
  intro start
  obtain ⟨hd, skips⟩ := skips
  obtain ⟨he, inner⟩ := inner
  obtain ⟨hk, rest⟩ := rest start
  refine ⟨he.trans hk, ?_⟩
  rw [readChildren]
  split
  · rename_i atEnd
    rw [hr] at atEnd
    cases atEnd
  · rename_i hr'
    obtain ⟨rfl, rfl⟩ := List.cons.inj (hr.symm.trans hr')
    rw [if_neg (by decide), if_pos (by decide)]
    simp only [skips, opening, if_neg Bool.false_ne_true, inner, rest]
    rfl

theorem accepts_childrenText {x : CodePoint} (hr : c.rest = x :: t) (noBlock : x.is '{' = false)
    (noElement : x.is '<' = false)
    (rest : Part.Accepts (.children name)
      (c.advance (Text.countWhile (fun y => !(y.is '{' || y.is '<')) t + 1)) g e) :
    Part.Accepts (.children name) c g e := by
  intro start
  obtain ⟨he, rest⟩ := rest start
  refine ⟨(c.skipText hr).2.trans he, ?_⟩
  rw [readChildren]
  split
  · rename_i atEnd
    rw [hr] at atEnd
    cases atEnd
  · rename_i hr'
    obtain ⟨rfl, rfl⟩ := List.cons.inj (hr.symm.trans hr')
    rw [if_neg (by simp [noBlock]), if_neg (by simp [noElement])]
    simp only [skipText, rest]
    rfl

end Elements

/-! ## All parts -/

variable {strict : Bool}

/-- What is read is accepted by the reader of its part. -/
theorem Reads.accepts {p : Part} {c d : Cursor} {f : Found} (h : Reads strict p c f d) :
    p.Accepts c f d := by
  induction h with
  | codeEnd skips atEnd => exact accepts_codeEnd skips atEnd
  | codeClose skips lead => exact accepts_codeClose skips lead
  | codeTemplate skips lead _ _ inner rest => exact accepts_codeTemplate skips lead inner rest
  | codeOpen skips lead _ rest => exact accepts_codeOpen skips lead rest
  | codeShut skips lead _ rest => exact accepts_codeShut skips lead rest
  | codeElement skips lead element _ inner rest =>
    exact accepts_codeElement skips lead inner rest (element.imports_eq_nil rfl)
  | codeDeclaration skips lead _ _ inner rest =>
    exact accepts_codeDeclaration skips lead inner rest
  | codeToken skips lead _ _ rest => exact accepts_codeToken skips lead rest
  | templateEnd hr => exact accepts_templateEnd hr
  | templateEscape hr _ rest => exact accepts_templateEscape hr rest
  | templateBlock hr block _ inner rest => exact accepts_templateBlock hr inner block.endsAt rest
  | templatePoint hr noEscape noEnd noBlock _ rest =>
    exact accepts_templatePoint hr noEscape noEnd noBlock rest
  | declaration hk hq hs he found _ means inner =>
    exact accepts_declaration hk hq hs he found inner means
  | attributesNone lacks => exact accepts_attributesNone lacks
  | attributesBlock brace hr block inner =>
    exact accepts_attributesBlock brace hr inner block.endsAt
  | fragment he notAtEnd skips hr _ inner => exact accepts_fragment he notAtEnd skips hr inner
  | elementClosed he notAtEnd skips eq pos _ tag =>
    exact accepts_elementClosed he notAtEnd skips eq pos tag
  | elementOpen hk notAtEnd skips eq pos _ _ tag inner =>
    exact accepts_elementOpen hk notAtEnd skips eq pos tag inner
  | tagClosed skips closes => exact accepts_tagClosed skips closes
  | tagOpen skips hr => exact accepts_tagOpen skips hr
  | tagAttribute skips hr noSlash noEnd _ _ head rest =>
    exact accepts_tagAttribute skips hr noSlash noEnd head rest
  | attributeSpread hd hr block inner => exact accepts_attributeSpread hd hr inner block.endsAt
  | attributeName hn eq pos skips noValue => exact accepts_attributeName hn eq pos skips noValue
  | attributeValue he eq pos skips hr skips' _ value =>
    exact accepts_attributeValue he eq pos skips hr skips' value
  | valueQuoted hn hr isQuote closes => exact accepts_valueQuoted hn hr isQuote closes
  | valueContainer hd hc hr block inner =>
    exact accepts_valueContainer hd hc hr inner block.endsAt
  | valueElement hd hr _ inner => exact accepts_valueElement hd hr inner
  | childrenBlock hr block _ inner rest => exact accepts_childrenBlock hr inner block.endsAt rest
  | childrenClose hr skips closing stop same =>
    exact accepts_childrenClose hr skips closing stop same
  | childrenElement hr skips opening _ _ inner rest =>
    exact accepts_childrenElement hr skips opening inner rest
  | childrenText hr noBlock noElement _ rest =>
    exact accepts_childrenText hr noBlock noElement rest

/-- A source that is read as a module is parsed as what is found in it. -/
theorem Reads.parse_eq {source : Text} {d : Cursor} {f : Found}
    (h : Reads strict (.code false [] .start) (codeStart source) f d) :
    parse source = .ok { source, imports := f.imports, elements := f.elements } := by
  obtain ⟨_, reads⟩ := h.accepts
  rw [parse, reads]

end Document

end StyleBinding
