import StyleBinding.Proofs.Reading.Relation

/-!
# What the readers accept is a reading

One theorem for each reader, by the recursion of the readers: where a reader
succeeds, the rules of `Reads` say so too.
-/

namespace StyleBinding

namespace Document

open Cursor

theorem findsLiteral_of_ok {start : Nat} {depth : Int} {seen : Bool} {last : Text} {c : Cursor}
    {r : { d : Cursor // c.Upto d }} (h : findPath start depth seen last c = .ok r) :
    FindsLiteral depth seen last c r.1 := by
  fun_induction findPath start depth seen last c with
  | case1 | case2 | case3 | case4 | case6 | case8 | case10 | case11 | case13 => cases h
  | case5 =>
    rename_i hd skips _ _ _ _ _ isString _ _ _ _ found ih
    cases h
    exact .literal ⟨hd, skips⟩ isString (ih found)
  | case7 =>
    rename_i hd skips _ _ hr _ isMark _ _ _ _ _ found ih
    cases h
    exact .mark ⟨hd, skips⟩ hr isMark (ih found)
  | case9 =>
    rename_i hd skips _ _ _ _ _ pos _ _ _ ends _ _ skips' isQuote
    cases h
    exact .keyword ⟨hd, skips⟩ rfl pos ends ⟨_, skips'⟩ isQuote
  | case12 =>
    rename_i hd skips _ _ _ _ _ pos _ _ _ goesOn _ _ found ih
    cases h
    exact .word ⟨hd, skips⟩ rfl pos goesOn (ih found)

theorem findsPath_of_ok {start : Nat} {k p q : Cursor} {hp : k.Upto p}
    {hq : p.Upto q} (hk : k.skipTrivia = .ok ⟨p, hp⟩)
    (h : (if p.rest.head?.any Lexeme.isQuote then .ok ⟨p, .refl p⟩
      else findPath start 0 false [] p) = .ok ⟨q, hq⟩) : k.FindsPath q := by
  split at h
  · rename_i isQuote
    cases h
    exact ⟨p, ⟨hp, hk⟩, .inl ⟨isQuote, rfl⟩⟩
  · rename_i isQuote
    exact ⟨p, ⟨hp, hk⟩, .inr ⟨by simpa using isQuote, findsLiteral_of_ok h⟩⟩

theorem Reads.block_eq {c d : Cursor} {f : Found} (h : Reads false .block c f d) :
    f = { elements := f.elements } := by
  obtain ⟨imports, elements⟩ := f
  obtain rfl : imports = [] := h.imports_eq_nil rfl
  rfl

mutual

theorem Reads.of_readCode {nested : Bool} {opened : List Opened} {prev : Previous} {c : Cursor}
    {r : c.Reading Found} (h : readCode nested opened prev c = .ok r) :
    Reads false (.code nested opened prev) c r.value r.stop := by
  rw [readCode] at h
  split at h
  · cases h
  rename_i d hd skips
  have skips : c.Skips d := ⟨hd, skips⟩
  have asLong := hd.length_le
  split at h
  · rename_i atEnd
    split at h
    · cases h
    split at h
    · cases h
    · rename_i notNested
      cases h
      simp only [Bool.not_eq_true] at notNested
      subst notNested
      exact .codeEnd skips atEnd
  rename_i x t hr
  have shorter := (past_of_cons hr).length_lt
  split at h
  · cases h
  · rename_i lead
    have lead : Lead.At _ prev d .template := ⟨x, t, hr, lead⟩
    split at h
    · cases h
    rename_i r₁ h₁
    have shorter' := r₁.past.length_lt
    split at h
    · cases h
    rename_i s h₂
    cases h
    exact .codeTemplate skips lead (.of_readTemplate h₁) (.of_readCode h₂)
  · rename_i b lead
    have lead : Lead.At _ prev d (.opener b) := ⟨x, t, hr, lead⟩
    dsimp only at h
    split at h
    · cases h
    rename_i s h₁
    cases h
    exact .codeOpen skips lead (.of_readCode h₁)
  · rename_i b lead
    split at h
    · split at h
      · rename_i closes
        simp only [Bool.and_eq_true, decide_eq_true_eq] at closes
        obtain ⟨rfl, rfl⟩ := closes
        cases h
        exact .codeClose skips ⟨x, t, hr, lead⟩
      · cases h
    · rename_i o outer
      split at h
      · rename_i same
        subst same
        have lead : Lead.At _ prev d (.closer o.bracket) := ⟨x, t, hr, lead⟩
        split at h
        · cases h
        rename_i s h₁
        cases h
        exact .codeShut skips lead (.of_readCode h₁)
      · cases h
  · rename_i lead
    have lead : Lead.At _ prev d .element := ⟨x, t, hr, lead⟩
    split at h
    · cases h
    rename_i r₁ h₁
    have shorter' := r₁.past.length_lt
    split at h
    · cases h
    rename_i s h₂
    cases h
    exact .codeElement skips lead (.of_readElement h₁) (.of_readCode h₂)
  · rename_i keyword lead
    have lead : Lead.At _ prev d (.declaration keyword) := ⟨x, t, hr, lead⟩
    split at h
    · cases h
    rename_i r₁ h₁
    have shorter' := r₁.past.length_lt
    split at h
    · cases h
    rename_i s h₂
    cases h
    exact .codeDeclaration skips lead (.of_readDeclaration h₁) (.of_readCode h₂)
  · rename_i stop prev' lead
    have lead : Lead.At _ prev d (.token stop prev') := ⟨x, t, hr, lead⟩
    have shorter' := stop.2.length_lt
    split at h
    · cases h
    rename_i s h₁
    cases h
    exact .codeToken skips lead (fun isStrict => nomatch isStrict) (.of_readCode h₁)
termination_by 8 * c.rest.length + 4

/-- A block is code, and the place behind the brace that closes it. -/
theorem Reads.of_readBlock {c : Cursor} {r : c.Progress (Found × { d : Cursor // c.Upto d })}
    (h : readBlock c = .ok r) :
    Reads false .block c r.value.1 r.value.2.1 ∧ r.stop = r.value.2.1.advance 1 := by
  rw [readBlock] at h
  split at h
  · cases h
  rename_i s hs
  split at h
  · cases h
  cases h
  exact ⟨.of_readCode hs, rfl⟩
termination_by 8 * c.rest.length + 5

theorem Reads.of_readTemplate {start : Nat} {c : Cursor} {r : c.Progress Found}
    (h : readTemplate start c = .ok r) : Reads false .template c r.value r.stop := by
  rw [readTemplate] at h
  split at h
  · cases h
  rename_i x t hr
  have shorter := (past_of_cons hr).length_lt
  dsimp only at h
  split at h
  · rename_i isEscape
    obtain rfl := CodePoint.is_iff.1 isEscape
    split at h
    · cases h
    rename_i y u
    have shorter' : (c.advance 2).rest.length < c.rest.length := by
      simp only [advance, hr, List.length_drop, List.length_cons]
      omega
    split at h
    · cases h
    rename_i r₁ h₁
    cases h
    exact .templateEscape hr (.of_readTemplate h₁)
  rename_i noEscape
  split at h
  · rename_i isMark
    obtain rfl := CodePoint.is_iff.1 isMark
    cases h
    exact .templateEnd hr
  rename_i noMark
  split at h
  · rename_i opens
    obtain ⟨u, hu⟩ := List.isPrefixOf_iff_prefix.1 opens
    have two := le_length_of_startsWith opens
    have shorter' := (past_advance (c := c) (n := 2) (by omega) two).length_lt
    split at h
    · cases h
    rename_i b hb
    obtain ⟨⟨f, ⟨d, hd⟩⟩, stop, past⟩ := b
    have shorter'' := past.length_lt
    split at h
    · cases h
    rename_i r₁ h₁
    cases h
    obtain ⟨block, stops⟩ := Reads.of_readBlock hb
    dsimp only at block stops shorter''
    subst stops
    exact .templateBlock (t := u) hu.symm block (.of_readTemplate h₁)
  · rename_i noBlock
    split at h
    · cases h
    rename_i r₁ h₁
    cases h
    exact .templatePoint hr (eq_false_of_ne_true noEscape) (eq_false_of_ne_true noMark)
      (eq_false_of_ne_true noBlock) (.of_readTemplate h₁)
termination_by 8 * c.rest.length + 0

theorem Reads.of_readDeclaration {c : Cursor} {keyword : { k : Cursor // c.Past k }}
    {r : c.Progress Found} (h : readDeclaration c keyword = .ok r) :
    Reads false (.declaration keyword.1) c r.value r.stop := by
  rw [readDeclaration] at h
  split at h
  · cases h
  rename_i p hp skips
  dsimp only at h
  split at h
  · cases h
  rename_i q hq found
  have shorter := (keyword.2.trans_upto (hp.trans hq)).length_lt
  split at h
  · cases h
  rename_i n hs
  have shorter' := (past_advance (c := q) (Lexeme.stringLength?_bounds hs).1
    (Lexeme.stringLength?_bounds hs).2).length_lt
  split at h
  · cases h
  rename_i a ha
  split at h
  · cases h
  rename_i clause ofTypes hc
  cases h
  exact .declaration keyword.2 (hp.trans hq) hs _ (findsPath_of_ok skips found)
    (.of_readImportAttributes ha) hc
termination_by 8 * c.rest.length + 0

theorem Reads.of_readImportAttributes {c : Cursor} {r : c.Reading Found}
    (h : readImportAttributes c = .ok r) : Reads false .importAttributes c r.value r.stop := by
  rw [readImportAttributes] at h
  split at h
  · cases h
  rename_i d hd skips
  dsimp only at h
  have skips : c.Skips d := ⟨hd, skips⟩
  split at h
  · rename_i isWord
    split at h
    · cases h
    rename_i b hb skips'
    have brace : c.FindsBrace b := ⟨d, skips, isWord, hb, skips'⟩
    have asLong := (hd.trans (upto_advance (Lexeme.nameLength_le d.rest))).trans hb |>.length_le
    split at h
    · rename_i atEnd
      cases h
      exact .attributesNone (.inr ⟨b, brace, by simp [atEnd]⟩)
    rename_i x t hr
    have shorter := (past_of_cons hr).length_lt
    split at h
    · rename_i opens
      obtain rfl := CodePoint.is_iff.1 opens
      split at h
      · cases h
      rename_i r₁ h₁
      cases h
      obtain ⟨block, stop⟩ := Reads.of_readBlock h₁
      dsimp only
      rw [stop]
      exact .attributesBlock brace hr block
    · rename_i other
      cases h
      exact .attributesNone (.inr ⟨b, brace, by simpa [hr] using other⟩)
  · rename_i noWord
    cases h
    exact .attributesNone (.inl ⟨d, skips, noWord⟩)
termination_by 8 * c.rest.length + 1

theorem Reads.of_readElement {c : Cursor} {r : c.Progress (List Element)}
    (h : readElement c = .ok r) : Reads false .element c { elements := r.value } r.stop := by
  rw [readElement] at h
  split at h
  · cases h
  rename_i x t hr
  have next := past_of_cons hr
  have notAtEnd : c.rest ≠ [] := by simp [hr]
  dsimp only at h
  split at h
  · cases h
  rename_i d hd skips
  have skips : (c.advance 1).Skips d := ⟨hd, skips⟩
  have shorter := (next.trans_upto hd).length_lt
  split at h
  · cases h
  rename_i y u hx
  split at h
  · rename_i closes
    obtain rfl := CodePoint.is_iff.1 closes
    have shorter' := (past_of_cons hx).length_lt
    split at h
    · cases h
    rename_i r₁ h₁
    cases h
    exact .fragment _ notAtEnd skips hx (.of_readChildren h₁)
  rename_i noFragment
  split at h
  · rename_i hn
    have shorter' := (past_advance hn (Lexeme.tagNameLength_le d.rest)).length_lt
    split at h
    · cases h
    rename_i tag ht
    have shorter'' := tag.past.length_lt
    have read := Reads.of_readTag ht
    split at h
    · rename_i isClosed
      cases h
      rw [isClosed] at read
      have e := Reads.elementClosed (next.upto.trans (hd.trans ((upto_advance
        (Lexeme.tagNameLength_le d.rest)).trans tag.past.upto))) notAtEnd skips rfl hn read
      simp only [isClosed]
      exact e
    · rename_i isOpen
      split at h
      · cases h
      rename_i r₁ h₁
      cases h
      simp only [Bool.not_eq_true] at isOpen
      rw [isOpen] at read
      have e := Reads.elementOpen (next.upto.trans (hd.trans ((upto_advance
        (Lexeme.tagNameLength_le d.rest)).trans (tag.past.upto.trans r₁.past.upto))))
        notAtEnd skips rfl hn read (.of_readChildren h₁)
      simp only [isOpen]
      exact e
  · cases h
termination_by 8 * c.rest.length + 0

theorem Reads.of_readTag {name : Text} {start : Nat} {region : Span} {c : Cursor}
    {r : c.Progress Tag} (h : readTag name start region c = .ok r) :
    Reads false (.tag region r.value.region r.value.attributes r.value.selfClosing) c
      { elements := r.value.elements } r.stop := by
  rw [readTag] at h
  split at h
  · cases h
  rename_i d hd skips
  have skips : c.Skips d := ⟨hd, skips⟩
  have asLong := hd.length_le
  split at h
  · cases h
  rename_i x t hr
  split at h
  · rename_i closes
    cases h
    exact .tagClosed skips closes
  rename_i noSlash
  split at h
  · rename_i opens
    obtain rfl := CodePoint.is_iff.1 opens
    cases h
    exact .tagOpen skips hr
  rename_i noClose
  dsimp only at h
  split at h
  · cases h
  rename_i a ha
  have shorter := a.past.length_lt
  split at h
  · cases h
  rename_i r₁ h₁
  cases h
  exact .tagAttribute skips hr (eq_false_of_ne_true noSlash) (eq_false_of_ne_true noClose)
    (.of_readAttribute ha) (.of_readTag h₁)
termination_by 8 * c.rest.length + 3

theorem Reads.of_readAttribute {c : Cursor} {r : c.Progress (Attribute × List Element)}
    (h : readAttribute c = .ok r) :
    Reads false (.attribute r.value.1) c { elements := r.value.2 } r.stop := by
  rw [readAttribute] at h
  split at h
  · cases h
  rename_i x t hr
  have shorter := (past_of_cons hr).length_lt
  split at h
  · rename_i opens
    obtain rfl := CodePoint.is_iff.1 opens
    dsimp only at h
    split at h
    · cases h
    rename_i b hb
    cases h
    obtain ⟨block, stop⟩ := Reads.of_readBlock hb
    have e := Reads.attributeSpread (c := c) (stop ▸ ((past_of_cons hr).trans b.past).upto) hr block
    rw [block.block_eq] at e
    simpa only [stop] using e
  split at h
  · rename_i hn
    have shorter' := (past_advance hn (Lexeme.attributeNameLength_le c.rest)).length_lt
    dsimp only at h
    split at h
    · cases h
    rename_i q hq skips
    have skips : (c.advance (Lexeme.attributeNameLength c.rest)).Skips q := ⟨hq, skips⟩
    have asLong := hq.length_le
    split at h
    · rename_i atEnd
      cases h
      exact .attributeName _ rfl hn skips (by simp [atEnd])
    rename_i y u hx
    split at h
    · rename_i isEqual
      obtain rfl := CodePoint.is_iff.1 isEqual
      have shorter'' := (past_of_cons hx).length_lt
      split at h
      · cases h
      rename_i v hv skips'
      have asLong' := hv.length_le
      split at h
      · cases h
      rename_i r₁ h₁
      cases h
      exact .attributeValue _ rfl hn skips hx ⟨hv, skips'⟩ (.of_readValue h₁)
    · rename_i other
      cases h
      exact .attributeName _ rfl hn skips (by simpa [hx] using other)
  · cases h
termination_by 8 * c.rest.length + 2

theorem Reads.of_readValue {c : Cursor} {r : c.Progress (AttributeValue × List Element)}
    (h : readValue c = .ok r) :
    Reads false (.value r.value.1) c { elements := r.value.2 } r.stop := by
  rw [readValue] at h
  split at h
  · cases h
  rename_i x t hr
  have shorter := (past_of_cons hr).length_lt
  split at h
  · rename_i isQuote
    split at h
    · cases h
    rename_i n hn
    cases h
    exact .valueQuoted _ hr isQuote hn
  split at h
  · rename_i opens
    obtain rfl := CodePoint.is_iff.1 opens
    dsimp only at h
    split at h
    · cases h
    rename_i b hb
    cases h
    obtain ⟨block, stop⟩ := Reads.of_readBlock hb
    have e := Reads.valueContainer (c := c) b.value.2.2
      (stop ▸ ((past_of_cons hr).trans b.past).upto) hr block
    rw [block.block_eq] at e
    simpa only [stop] using e
  split at h
  · rename_i opens
    obtain rfl := CodePoint.is_iff.1 opens
    split at h
    · cases h
    rename_i r₁ h₁
    cases h
    exact .valueElement _ hr (.of_readElement h₁)
  · cases h
termination_by 8 * c.rest.length + 1

theorem Reads.of_readChildren {name : Text} {start : Nat} {c : Cursor}
    {r : c.Progress (List Element)} (h : readChildren name start c = .ok r) :
    Reads false (.children name) c { elements := r.value } r.stop := by
  rw [readChildren] at h
  split at h
  · cases h
  rename_i x t hr
  have shorter := (past_of_cons hr).length_lt
  dsimp only at h
  split at h
  · rename_i opens
    obtain rfl := CodePoint.is_iff.1 opens
    split at h
    · cases h
    rename_i b hb
    obtain ⟨⟨f, ⟨d, hd⟩⟩, stop, past⟩ := b
    have shorter' := past.length_lt
    split at h
    · cases h
    rename_i r₁ h₁
    cases h
    obtain ⟨block, stops⟩ := Reads.of_readBlock hb
    dsimp only at block stops shorter'
    subst stops
    rw [block.block_eq] at block
    exact .childrenBlock hr block (.of_readChildren h₁)
  rename_i noBrace
  split at h
  · rename_i opens
    obtain rfl := CodePoint.is_iff.1 opens
    split at h
    · cases h
    rename_i d hd skips
    have skips : (c.advance 1).Skips d := ⟨hd, skips⟩
    split at h
    · rename_i slash
      split at h
      · cases h
      rename_i n hn
      split at h
      · rename_i same
        cases h
        exact .childrenClose hr skips slash hn same
      · cases h
    · rename_i noSlash
      split at h
      · cases h
      rename_i e he
      have shorter' := e.past.length_lt
      split at h
      · cases h
      rename_i r₁ h₁
      cases h
      exact .childrenElement hr skips (eq_false_of_ne_true noSlash) (.of_readElement he)
        (.of_readChildren h₁)
  rename_i noMark
  split at h
  · cases h
  rename_i r₁ h₁
  cases h
  have shorter' := (c.skipText hr).2.length_lt
  have rest := Reads.of_readChildren h₁
  exact .childrenText hr (eq_false_of_ne_true noBrace) (eq_false_of_ne_true noMark) rest
termination_by 8 * c.rest.length + 3

end

/-- A source that is read as a module is read as code up to its end. -/
theorem Reads.of_parse {source : Text} {d : Document} (h : parse source = .ok d) :
    ∃ found stop, Reads false (.code false [] .start) (codeStart source) found stop ∧
      d = { source, imports := found.imports, elements := found.elements } := by
  unfold parse at h
  split at h
  · cases h
  rename_i r hr
  cases h
  exact ⟨r.value, r.stop, .of_readCode hr, rfl⟩

end Document

end StyleBinding
