import Mathlib.Logic.Relation
import StyleBinding.Proofs.Reading.Path
import StyleBinding.Proofs.Reading.Relocated

/-!
# Where reading comes to

Reading a source is at one stage after another: code, a template, an element, the rest of
a tag, or children are to be read from some place on. `Document.Leads` says which stage
comes behind which, when a reader calls another or goes on behind what a called one has read.
No stage asks whether the source will be accepted in the end, so the stages that reading
comes to (`Document.Visits`) are those of refused sources too.
-/

namespace StyleBinding

namespace Document

open Cursor Lexeme

/-- What is to be read. Templates, tags and children know where what they belong to starts,
and a tag the region of its attributes so far. -/
inductive Task where
  | code (nested : Bool) (opened : List Opened) (prev : Previous)
  | template (start : Nat)
  | element
  | tag (name : Text) (start : Nat) (region : Span)
  | children (name : Text) (start : Nat)

/-- Code behind an opening brace. -/
abbrev Task.block : Task := .code true [] .start

/-- Something to be read from a place on. -/
structure Stage where
  task : Task
  place : Cursor

/-- Reading comes from one stage to another. -/
inductive Leads : Stage → Stage → Prop
  | codeTemplate {nested : Bool} {opened : List Opened} {prev : Previous} {c d : Cursor} :
    c.Skips d → Lead.At (!nested && opened.isEmpty) prev d .template →
    Leads ⟨.code nested opened prev, c⟩ ⟨.template d.offset, d.advance 1⟩
  | behindTemplate {nested : Bool} {opened : List Opened} {prev : Previous} {c d e : Cursor}
      {f : Found} :
    c.Skips d → Lead.At (!nested && opened.isEmpty) prev d .template →
    Reads false .template (d.advance 1) f e →
    Leads ⟨.code nested opened prev, c⟩ ⟨.code nested opened .value, e⟩
  | codeOpen {nested : Bool} {opened : List Opened} {prev : Previous} {c d : Cursor}
      {b : Bracket} :
    c.Skips d → Lead.At (!nested && opened.isEmpty) prev d (.opener b) →
    Leads ⟨.code nested opened prev, c⟩
      ⟨.code nested (⟨b, b = .round && prev.opensHead⟩ :: opened) (.mark b.opener.toString),
        d.advance 1⟩
  | codeShut {nested : Bool} {opened : List Opened} {o : Opened} {prev : Previous}
      {c d : Cursor} :
    c.Skips d → Lead.At (!nested && (o :: opened).isEmpty) prev d (.closer o.bracket) →
    Leads ⟨.code nested (o :: opened) prev, c⟩
      ⟨.code nested opened (if o.head then .head else .mark o.bracket.closer.toString),
        d.advance 1⟩
  | codeElement {nested : Bool} {opened : List Opened} {prev : Previous} {c d : Cursor} :
    c.Skips d → Lead.At (!nested && opened.isEmpty) prev d .element →
    Leads ⟨.code nested opened prev, c⟩ ⟨.element, d⟩
  | behindElement {nested : Bool} {opened : List Opened} {prev : Previous} {c d e : Cursor}
      {f : Found} :
    c.Skips d → Lead.At (!nested && opened.isEmpty) prev d .element →
    Reads false .element d f e →
    Leads ⟨.code nested opened prev, c⟩ ⟨.code nested opened .value, e⟩
  | codeAttributes {nested : Bool} {opened : List Opened} {prev : Previous} {c d q b : Cursor}
      {keyword : { k : Cursor // d.Past k }} {n : Nat} {t : Text} :
    c.Skips d → Lead.At (!nested && opened.isEmpty) prev d (.declaration keyword) →
    keyword.1.FindsPath q → stringLength? q.rest = some n → (q.advance n).FindsBrace b →
    b.rest = .scalar '{' :: t →
    Leads ⟨.code nested opened prev, c⟩ ⟨.block, b.advance 1⟩
  | behindDeclaration {nested : Bool} {opened : List Opened} {prev : Previous}
      {c d e : Cursor} {keyword : { k : Cursor // d.Past k }} {f : Found} :
    c.Skips d → Lead.At (!nested && opened.isEmpty) prev d (.declaration keyword) →
    Reads false (.declaration keyword.1) d f e →
    Leads ⟨.code nested opened prev, c⟩ ⟨.code nested opened (.mark ";"), e⟩
  | codeToken {nested : Bool} {opened : List Opened} {prev prev' : Previous} {c d : Cursor}
      {stop : { e : Cursor // d.Past e }} :
    c.Skips d → Lead.At (!nested && opened.isEmpty) prev d (.token stop prev') →
    Leads ⟨.code nested opened prev, c⟩ ⟨.code nested opened prev', stop.1⟩
  | templateEscape {start : Nat} {c : Cursor} {x : CodePoint} {t : Text} :
    c.rest = .scalar '\\' :: x :: t → Leads ⟨.template start, c⟩ ⟨.template start, c.advance 2⟩
  | templateBlock {start : Nat} {c : Cursor} {t : Text} :
    c.rest = .scalar '$' :: .scalar '{' :: t → Leads ⟨.template start, c⟩ ⟨.block, c.advance 2⟩
  | templateBehindBlock {start : Nat} {c d : Cursor} {t : Text} {f : Found} :
    c.rest = .scalar '$' :: .scalar '{' :: t → Reads false .block (c.advance 2) f d →
    Leads ⟨.template start, c⟩ ⟨.template start, d.advance 1⟩
  | templatePoint {start : Nat} {c : Cursor} {x : CodePoint} {t : Text} :
    c.rest = x :: t → x.is '\\' = false → x.is '\x60' = false →
    c.rest.startsWith "$\x7b" = false →
    Leads ⟨.template start, c⟩ ⟨.template start, c.advance 1⟩
  | fragment {c d : Cursor} {t : Text} :
    c.rest ≠ [] → (c.advance 1).Skips d → d.rest = .scalar '>' :: t →
    Leads ⟨.element, c⟩ ⟨.children [] c.offset, d.advance 1⟩
  | elementTag {c d : Cursor} {n : Nat} :
    c.rest ≠ [] → (c.advance 1).Skips d → n = tagNameLength d.rest → 0 < n →
    Leads ⟨.element, c⟩ ⟨.tag (d.rest.take n) c.offset (.point (d.offset + n)), d.advance n⟩
  | elementChildren {c d e : Cursor} {n : Nat} {region : Span} {attributes : List Attribute}
      {f : Found} :
    c.rest ≠ [] → (c.advance 1).Skips d → n = tagNameLength d.rest → 0 < n →
    Reads false (.tag (.point (d.offset + n)) region attributes false) (d.advance n) f e →
    Leads ⟨.element, c⟩ ⟨.children (d.rest.take n) c.offset, e⟩
  | tagSpread {name : Text} {start : Nat} {region : Span} {c d : Cursor} {t : Text} :
    c.Skips d → d.rest = .scalar '{' :: t →
    Leads ⟨.tag name start region, c⟩ ⟨.block, d.advance 1⟩
  | tagContainer {name : Text} {start : Nat} {region : Span} {c d q v : Cursor} {n : Nat}
      {t u : Text} :
    c.Skips d → n = attributeNameLength d.rest → 0 < n → (d.advance n).Skips q →
    q.rest = .scalar '=' :: t → (q.advance 1).Skips v → v.rest = .scalar '{' :: u →
    Leads ⟨.tag name start region, c⟩ ⟨.block, v.advance 1⟩
  | tagElement {name : Text} {start : Nat} {region : Span} {c d q v : Cursor} {n : Nat}
      {t u : Text} :
    c.Skips d → n = attributeNameLength d.rest → 0 < n → (d.advance n).Skips q →
    q.rest = .scalar '=' :: t → (q.advance 1).Skips v → v.rest = .scalar '<' :: u →
    Leads ⟨.tag name start region, c⟩ ⟨.element, v⟩
  | behindAttribute {name : Text} {start : Nat} {region : Span} {a : Attribute} {c d e : Cursor}
      {x : CodePoint} {t : Text} {f : Found} :
    c.Skips d → d.rest = x :: t → d.rest.startsWith "/>" = false → x.is '>' = false →
    Reads false (.attribute a) d f e →
    Leads ⟨.tag name start region, c⟩ ⟨.tag name start (region.extendTo e.offset), e⟩
  | childrenBlock {name : Text} {start : Nat} {c : Cursor} {t : Text} :
    c.rest = .scalar '{' :: t → Leads ⟨.children name start, c⟩ ⟨.block, c.advance 1⟩
  | childrenBehindBlock {name : Text} {start : Nat} {c d : Cursor} {t : Text} {f : Found} :
    c.rest = .scalar '{' :: t → Reads false .block (c.advance 1) f d →
    Leads ⟨.children name start, c⟩ ⟨.children name start, d.advance 1⟩
  | childrenElement {name : Text} {start : Nat} {c d : Cursor} {t : Text} :
    c.rest = .scalar '<' :: t → (c.advance 1).Skips d → d.rest.startsWith "/" = false →
    Leads ⟨.children name start, c⟩ ⟨.element, c⟩
  | childrenBehindElement {name : Text} {start : Nat} {c d e : Cursor} {t : Text} {f : Found} :
    c.rest = .scalar '<' :: t → (c.advance 1).Skips d → d.rest.startsWith "/" = false →
    Reads false .element c f e →
    Leads ⟨.children name start, c⟩ ⟨.children name start, e⟩
  | childrenText {name : Text} {start : Nat} {c : Cursor} {x : CodePoint} {t : Text} :
    c.rest = x :: t → x.is '{' = false → x.is '<' = false →
    Leads ⟨.children name start, c⟩ ⟨.children name start,
      c.advance (Text.countWhile (fun y => !(y.is '{' || y.is '<')) t + 1)⟩

/-- The stages that reading a source comes to. -/
def Visits (source : Text) : Stage → Prop :=
  Relation.ReflTransGen Leads ⟨.code false [] .start, codeStart source⟩

/-! ## Forward -/

namespace Leads

variable {c : Cursor} {b : Stage}

/-- The next stage of code starts behind the blanks and comments. -/
theorem code_skips {nested : Bool} {opened : List Opened} {prev : Previous}
    (h : Leads ⟨.code nested opened prev, c⟩ b) : ∃ d, c.Skips d ∧ d.Upto b.place := by
  cases h with
  | codeTemplate skips lead | codeOpen skips lead | codeShut skips lead =>
    obtain ⟨x, t, hr, _⟩ := lead
    exact ⟨_, skips, (past_of_cons hr).upto⟩
  | behindTemplate skips lead inner =>
    obtain ⟨x, t, hr, _⟩ := lead
    exact ⟨_, skips, (past_of_cons hr).upto.trans inner.upto⟩
  | codeElement skips => exact ⟨_, skips, .refl _⟩
  | behindElement skips _ inner | behindDeclaration skips _ inner => exact ⟨_, skips, inner.upto⟩
  | @codeAttributes _ _ _ _ _ _ _ keyword _ _ skips _ found hs brace hr =>
    have behind := (found.upto.trans (upto_advance (stringLength?_bounds hs).2)).trans
      (brace.upto.trans (past_of_cons hr).upto)
    exact ⟨_, skips, keyword.2.upto.trans behind⟩
  | @codeToken _ _ _ _ _ _ stop skips => exact ⟨_, skips, stop.2.upto⟩

/-- What an element begins with, in front of the next stage. -/
theorem element_head (h : Leads ⟨.element, c⟩ b) :
    ∃ q x t, (c.advance 1).Skips q ∧ q.rest = x :: t ∧ startsToken x = true ∧
      (q.advance 1).Upto b.place := by
  have named {q : Cursor} {n : Nat} (skips : (c.advance 1).Skips q)
      (eq : n = tagNameLength q.rest) (pos : 0 < n) (upto : (q.advance n).Upto b.place) :
      ∃ q x t, (c.advance 1).Skips q ∧ q.rest = x :: t ∧ startsToken x = true ∧
        (q.advance 1).Upto b.place := by
    have past : q.Past (q.advance n) := past_advance pos (eq ▸ tagNameLength_le _)
    have length := past.length_lt
    obtain ⟨x, t, hr⟩ : ∃ x t, q.rest = x :: t := List.exists_cons_of_length_pos (by omega)
    rw [eq, hr] at pos
    exact ⟨q, x, t, skips, hr, startsToken_of_tagNameLength pos, past.advance_upto.trans upto⟩
  cases h with
  | fragment _ skips hr => exact ⟨_, _, _, skips, hr, by decide, .refl _⟩
  | elementTag _ skips eq pos => exact named skips eq pos (.refl _)
  | elementChildren _ skips eq pos tag => exact named skips eq pos tag.upto

/-- What the rest of a tag begins with, in front of the next stage. -/
theorem tag_head {name : Text} {start : Nat} {region : Span}
    (h : Leads ⟨.tag name start region, c⟩ b) :
    ∃ q x t, c.Skips q ∧ q.rest = x :: t ∧ (q.advance 1).Upto b.place ∧
      (x.isTag = false → goesOn x = false) ∧ startsToken x = true := by
  have valued {d q v : Cursor} {n : Nat} {t : Text} (skips : c.Skips d)
      (eq : n = attributeNameLength d.rest) (pos : 0 < n) (skips' : (d.advance n).Skips q)
      (hr : q.rest = .scalar '=' :: t) (skipsV : (q.advance 1).Skips v) (upto : v.Upto b.place) :
      ∃ q x t, c.Skips q ∧ q.rest = x :: t ∧ (q.advance 1).Upto b.place ∧
        (x.isTag = false → goesOn x = false) ∧ startsToken x = true := by
    have past : d.Past (d.advance n) := past_advance pos (eq ▸ attributeNameLength_le _)
    have length := past.length_lt
    obtain ⟨x, u, hd⟩ : ∃ x u, d.rest = x :: u := List.exists_cons_of_length_pos (by omega)
    obtain ⟨starts, goes⟩ := head_of_attributeNameLength hd (eq ▸ pos)
    have behind := skips'.upto.trans ((past_of_cons hr).upto.trans (skipsV.upto.trans upto))
    exact ⟨d, x, u, skips, hd, past.advance_upto.trans behind, goes, starts⟩
  cases h with
  | tagSpread skips hr => exact ⟨_, _, _, skips, hr, .refl _, fun _ => by decide, by decide⟩
  | tagContainer skips eq pos skips' hr skipsV hv =>
    exact valued skips eq pos skips' hr skipsV (past_of_cons hv).upto
  | tagElement skips eq pos skips' hr skipsV =>
    exact valued skips eq pos skips' hr skipsV (.refl _)
  | behindAttribute skips hr _ _ inner =>
    obtain ⟨starts, goes⟩ := inner.attribute_head hr
    exact ⟨_, _, _, skips, hr, inner.accepts.1.advance_upto, goes, starts⟩

/-- Reading never goes back. -/
theorem upto {a : Stage} (h : Leads a b) : a.place.Upto b.place := by
  obtain ⟨task, c⟩ := a
  cases task with
  | code nested opened prev =>
    obtain ⟨d, skips, upto⟩ := h.code_skips
    exact skips.upto.trans upto
  | element =>
    obtain ⟨q, x, t, skips, hr, _, upto⟩ := h.element_head
    have first : c.Upto (c.advance 1) := by
      cases h with
      | fragment notAtEnd | elementTag notAtEnd | elementChildren notAtEnd =>
        exact upto_advance (List.length_pos_iff.2 notAtEnd)
    exact first.trans (skips.upto.trans ((past_of_cons hr).upto.trans upto))
  | tag name start region =>
    obtain ⟨q, x, t, skips, hr, upto, _⟩ := h.tag_head
    exact skips.upto.trans ((past_of_cons hr).upto.trans upto)
  | template start =>
    cases h with
    | templateEscape hr | templateBlock hr => exact upto_advance (by simp [hr])
    | @templateBehindBlock _ _ d _ _ hr block =>
      obtain ⟨u, hu⟩ := block.endsAt
      have opens : c.Upto (c.advance 2) := upto_advance (by simp [hr])
      exact opens.trans (block.upto.trans (past_of_cons hu).upto)
    | templatePoint hr => exact (past_of_cons hr).upto
  | children name start =>
    cases h with
    | childrenBlock hr => exact (past_of_cons hr).upto
    | childrenBehindBlock hr block =>
      obtain ⟨u, hu⟩ := block.endsAt
      exact (past_of_cons hr).upto.trans (block.upto.trans (past_of_cons hu).upto)
    | childrenElement => exact .refl c
    | childrenBehindElement _ _ _ inner => exact inner.upto
    | childrenText hr => exact (c.skipText hr).2.upto

end Leads

theorem upto_of_leads {a z : Stage} (h : Relation.ReflTransGen Leads a z) :
    a.place.Upto z.place := by
  induction h with
  | refl => exact .refl _
  | tail _ step ih => exact ih.trans step.upto

end Document

end StyleBinding
