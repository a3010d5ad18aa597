import StyleBinding.Document.Parse

/-!
# Readings

`Reads strict part c found d` says that the source from `c` to `d` is read as
`part`, and what declarations and elements are found on the way. It is the
relation that the readers of `StyleBinding.Document.Parse` compute, one rule for
each way they succeed, without their refusals, their measures and the offsets
that only serve to report refusals. Facts about everything a reader accepts are
proved by induction on the rules.

A slash where an expression may start is read as a regular expression if the rest
of the line allows it, and as an operator if not. Strict reading does without the
second case, in which the token depends on text far behind it.

A stretch of nested code ends in front of the brace that closes it, so the rules
for blocks read code behind an opening brace and go on behind the closing one.
-/

namespace StyleBinding

namespace Found

variable (f g h : Found)

@[simp] theorem imports_append : (f ++ g).imports = f.imports ++ g.imports := rfl

@[simp] theorem elements_append : (f ++ g).elements = f.elements ++ g.elements := rfl

@[simp] theorem nil_append : ({} : Found) ++ f = f := rfl

@[simp] theorem append_nil : f ++ ({} : Found) = f := by
  change (⟨f.imports ++ [], f.elements ++ []⟩ : Found) = f
  rw [List.append_nil, List.append_nil]

end Found

namespace Cursor

/-- `d` is where blanks and comments that start at `c` end. -/
def Skips (c d : Cursor) : Prop := ∃ h, c.skipTrivia = .ok ⟨d, h⟩

theorem Skips.upto {c d : Cursor} (h : c.Skips d) : c.Upto d := h.1

/-- Where blanks and comments end, no more of them follow. -/
theorem Skips.again {c d : Cursor} (h : c.Skips d) : d.Skips d := by
  obtain ⟨upto, h⟩ := h
  fun_induction skipTrivia c with
  | case1 c atEnd =>
    cases h
    exact ⟨.refl _, by rw [skipTrivia]; split <;> simp_all⟩
  | case2 | case4 | case6 => cases h
  | case3 c x t hr blank d hd skips ih =>
    cases h
    exact ih hd skips
  | case5 c x t hr noBlank n hn bounds d hd skips ih =>
    cases h
    exact ih hd skips
  | case7 c x t hr noBlank noComment closed =>
    cases h
    refine ⟨.refl _, ?_⟩
    rw [skipTrivia]
    split
    · rfl
    · rename_i y u hy
      obtain ⟨rfl, rfl⟩ := List.cons.inj (hr.symm.trans hy)
      rw [if_neg noBlank]
      split
      · rename_i n hn
        rw [noComment] at hn
        cases hn
      · rw [if_neg closed]

/-- The marks that import clauses are made of. -/
def isClauseMark (x : CodePoint) : Bool := x.is '{' || x.is '}' || x.is '*' || x.is ','

/-- How deep in braces an import clause is behind a mark. -/
def depthBehind (depth : Int) (x : CodePoint) : Int :=
  if x.is '{' then depth + 1 else if x.is '}' then depth - 1 else depth

/-- Whether a word is the keyword in front of the path, by what comes before. -/
def EndsClause (depth : Int) (seen : Bool) (last word : Text) : Prop :=
  word = ("from" : Text) ∧ depth = 0 ∧ seen = true ∧ last ≠ ("as" : Text)

/-- `q` is where the literal behind an import clause starts, of which the rest
stands at `c`. -/
inductive FindsLiteral : Int → Bool → Text → Cursor → Cursor → Prop
  | literal {depth : Int} {seen : Bool} {last : Text} {c d q : Cursor} {n : Nat} :
    c.Skips d → Lexeme.stringLength? d.rest = some n →
    FindsLiteral depth true last (d.advance n) q → FindsLiteral depth seen last c q
  | mark {depth : Int} {seen : Bool} {last : Text} {c d q : Cursor} {x : CodePoint} {t : Text} :
    c.Skips d → d.rest = x :: t → isClauseMark x = true →
    FindsLiteral (depthBehind depth x) true last (d.advance 1) q → FindsLiteral depth seen last c q
  | word {depth : Int} {seen : Bool} {last : Text} {c d q : Cursor} {n : Nat} :
    c.Skips d → n = Lexeme.nameLength d.rest → 0 < n →
    ¬ EndsClause depth seen last (d.rest.take n) →
    FindsLiteral depth true (d.rest.take n) (d.advance n) q → FindsLiteral depth seen last c q
  | keyword {depth : Int} {seen : Bool} {last : Text} {c d q : Cursor} {n : Nat} :
    c.Skips d → n = Lexeme.nameLength d.rest → 0 < n →
    EndsClause depth seen last (d.rest.take n) → (d.advance n).Skips q →
    q.rest.head?.any Lexeme.isQuote = true → FindsLiteral depth seen last c q

/-- `q` is where the literal of an import declaration starts whose keyword ends
at `k`: behind the keyword, or behind the clause that stands between. -/
def FindsPath (k q : Cursor) : Prop :=
  ∃ p, k.Skips p ∧
    ((p.rest.head?.any Lexeme.isQuote = true ∧ q = p) ∨
      (p.rest.head?.any Lexeme.isQuote = false ∧ FindsLiteral 0 false [] p q))

/-- The identifier at a place is one that import attributes stand behind. -/
def AtAttributeWord (c : Cursor) : Prop :=
  c.rest.take (Lexeme.nameLength c.rest) = ("with" : Text) ∨
    c.rest.take (Lexeme.nameLength c.rest) = ("assert" : Text)

/-- `b` is where the brace of import attributes would stand behind a path that
ends at `c`. -/
def FindsBrace (c b : Cursor) : Prop :=
  ∃ d, c.Skips d ∧ d.AtAttributeWord ∧ (d.advance (Lexeme.nameLength d.rest)).Skips b

/-- No import attributes follow a path that ends at `c`. -/
def LacksAttributes (c : Cursor) : Prop :=
  (∃ d, c.Skips d ∧ ¬ d.AtAttributeWord) ∨
    ∃ b, c.FindsBrace b ∧ b.rest.head? ≠ some (.scalar '{')

end Cursor

/-- A slash where an expression may start that opens no regular expression. -/
def Lead.IsStray (prev : Previous) (c : Cursor) : Prop :=
  prev.allowsExpression = true ∧ c.rest.head? = some (.scalar '/') ∧
    Lexeme.regexLength? c.rest = none

/-- What a place begins, at a place that is not the end. -/
def Lead.At (topLevel : Bool) (prev : Previous) (c : Cursor) (lead : Lead c) : Prop :=
  ∃ (x : CodePoint) (t : Text) (hr : c.rest = x :: t), Lead.read topLevel prev c hr = .ok lead

namespace Document

/-- What a stretch of source is read as. A tag is read behind its name, where a
region and the attributes grow from left to right; attributes and values name
what is read. -/
inductive Part where
  | code (nested : Bool) (opened : List Opened) (prev : Previous)
  | template
  | declaration (keyword : Cursor)
  | importAttributes
  | element
  | tag (before after : Span) (attributes : List Attribute) (selfClosing : Bool)
  | attribute (a : Attribute)
  | value (v : AttributeValue)
  | children (name : Text)

/-- The part of a block between its braces. -/
abbrev Part.block : Part := .code true [] .start

open Cursor

/-- The source from one place to another is read as a part, in which declarations
and elements are found. -/
inductive Reads (strict : Bool) : Part → Cursor → Found → Cursor → Prop
  | codeEnd {prev : Previous} {c d : Cursor} :
    c.Skips d → d.rest = [] → Reads strict (.code false [] prev) c {} d
  | codeClose {prev : Previous} {c d : Cursor} :
    c.Skips d → Lead.At false prev d (.closer .curly) → Reads strict (.code true [] prev) c {} d
  | codeTemplate {nested : Bool} {opened : List Opened} {prev : Previous} {c d e k : Cursor}
      {f g : Found} :
    c.Skips d → Lead.At (!nested && opened.isEmpty) prev d .template →
    Reads strict .template (d.advance 1) f e → Reads strict (.code nested opened .value) e g k →
    Reads strict (.code nested opened prev) c (f ++ g) k
  | codeOpen {nested : Bool} {opened : List Opened} {prev : Previous} {c d k : Cursor}
      {b : Bracket} {g : Found} :
    c.Skips d → Lead.At (!nested && opened.isEmpty) prev d (.opener b) →
    Reads strict (.code nested (⟨b, b = .round && prev.opensHead⟩ :: opened)
      (.mark b.opener.toString)) (d.advance 1) g k →
    Reads strict (.code nested opened prev) c g k
  | codeShut {nested : Bool} {opened : List Opened} {o : Opened} {prev : Previous}
      {c d k : Cursor} {g : Found} :
    c.Skips d → Lead.At (!nested && (o :: opened).isEmpty) prev d (.closer o.bracket) →
    Reads strict (.code nested opened (if o.head then .head else .mark o.bracket.closer.toString))
      (d.advance 1) g k →
    Reads strict (.code nested (o :: opened) prev) c g k
  | codeElement {nested : Bool} {opened : List Opened} {prev : Previous} {c d e k : Cursor}
      {f g : Found} :
    c.Skips d → Lead.At (!nested && opened.isEmpty) prev d .element →
    Reads strict .element d f e → Reads strict (.code nested opened .value) e g k →
    Reads strict (.code nested opened prev) c (f ++ g) k
  | codeDeclaration {nested : Bool} {opened : List Opened} {prev : Previous}
      {c d e k : Cursor} {keyword : { k : Cursor // d.Past k }} {f g : Found} :
    c.Skips d → Lead.At (!nested && opened.isEmpty) prev d (.declaration keyword) →
    Reads strict (.declaration keyword.1) d f e →
    Reads strict (.code nested opened (.mark ";")) e g k →
    Reads strict (.code nested opened prev) c (f ++ g) k
  | codeToken {nested : Bool} {opened : List Opened} {prev prev' : Previous} {c d k : Cursor}
      {stop : { e : Cursor // d.Past e }} {g : Found} :
    c.Skips d → Lead.At (!nested && opened.isEmpty) prev d (.token stop prev') →
    (strict = true → ¬ Lead.IsStray prev d) →
    Reads strict (.code nested opened prev') stop.1 g k →
    Reads strict (.code nested opened prev) c g k
  | templateEnd {c : Cursor} {t : Text} :
    c.rest = .scalar '\x60' :: t → Reads strict .template c {} (c.advance 1)
  | templateEscape {c d : Cursor} {x : CodePoint} {t : Text} {g : Found} :
    c.rest = .scalar '\\' :: x :: t → Reads strict .template (c.advance 2) g d →
    Reads strict .template c g d
  | templateBlock {c d e : Cursor} {t : Text} {f g : Found} :
    c.rest = .scalar '$' :: .scalar '{' :: t → Reads strict .block (c.advance 2) f d →
    Reads strict .template (d.advance 1) g e → Reads strict .template c (f ++ g) e
  | templatePoint {c d : Cursor} {x : CodePoint} {t : Text} {g : Found} :
    c.rest = x :: t → x.is '\\' = false → x.is '\x60' = false →
    c.rest.startsWith "$\x7b" = false → Reads strict .template (c.advance 1) g d →
    Reads strict .template c g d
  | declaration {c k q e : Cursor} {n : Nat} {clause : ImportClause} {ofTypes : Bool}
      {f : Found} (hk : c.Past k) (hq : k.Upto q)
      (hs : Lexeme.stringLength? q.rest = some n) (he : c.Upto e.skipSemicolon.1) :
    k.FindsPath q → Reads strict .importAttributes (q.advance n) f e →
    readClause (c.rest.take (q.offset + n - c.offset)) (q.rest.take n) c.offset =
      .ok (clause, ofTypes) →
    Reads strict (.declaration k) c
      ({ imports := [{
          span := c.spanTo e.skipSemicolon.1 he
          gap := k.spanTo q hq
          path := q.spanTo (q.advance n) (upto_advance (Lexeme.stringLength?_bounds hs).2)
          clause
          ofTypes }] } ++ f) e.skipSemicolon.1
  | attributesNone {c : Cursor} : c.LacksAttributes → Reads strict .importAttributes c {} c
  | attributesBlock {c b d : Cursor} {t : Text} {f : Found} :
    c.FindsBrace b → b.rest = .scalar '{' :: t → Reads strict .block (b.advance 1) f d →
    Reads strict .importAttributes c f (d.advance 1)
  | fragment {c d e : Cursor} {t : Text} {f : Found} (he : c.Upto e) :
    c.rest ≠ [] → (c.advance 1).Skips d → d.rest = .scalar '>' :: t →
    Reads strict (.children []) (d.advance 1) f e →
    Reads strict .element c
      ({ elements := [{ name := [], span := c.spanTo e he, region := .point d.offset }] } ++ f) e
  | elementClosed {c d e : Cursor} {n : Nat} {region : Span} {attributes : List Attribute}
      {f : Found} (he : c.Upto e) :
    c.rest ≠ [] → (c.advance 1).Skips d → n = Lexeme.tagNameLength d.rest → 0 < n →
    Reads strict (.tag (.point (d.offset + n)) region attributes true) (d.advance n) f e →
    Reads strict .element c
      ({ elements := [{
          name := d.rest.take n
          span := c.spanTo e he
          region
          selfClosing := true
          parsed := attributes }] } ++ f) e
  | elementOpen {c d e k : Cursor} {n : Nat} {region : Span} {attributes : List Attribute}
      {f g : Found} (hk : c.Upto k) :
    c.rest ≠ [] → (c.advance 1).Skips d → n = Lexeme.tagNameLength d.rest → 0 < n →
    Reads strict (.tag (.point (d.offset + n)) region attributes false) (d.advance n) f e →
    Reads strict (.children (d.rest.take n)) e g k →
    Reads strict .element c
      ({ elements := [{
          name := d.rest.take n
          span := c.spanTo k hk
          region
          parsed := attributes }] } ++ (f ++ g)) k
  | tagClosed {region : Span} {c d : Cursor} :
    c.Skips d → d.rest.startsWith "/>" = true →
    Reads strict (.tag region region [] true) c {} (d.advance 2)
  | tagOpen {region : Span} {c d : Cursor} {t : Text} :
    c.Skips d → d.rest = .scalar '>' :: t →
    Reads strict (.tag region region [] false) c {} (d.advance 1)
  | tagAttribute {before after : Span} {a : Attribute} {attributes : List Attribute}
      {selfClosing : Bool} {c d e k : Cursor} {x : CodePoint} {t : Text} {f g : Found} :
    c.Skips d → d.rest = x :: t → d.rest.startsWith "/>" = false → x.is '>' = false →
    Reads strict (.attribute a) d f e →
    Reads strict (.tag (before.extendTo e.offset) after attributes selfClosing) e g k →
    Reads strict (.tag before after (a :: attributes) selfClosing) c (f ++ g) k
  | attributeSpread {c d : Cursor} {t : Text} {f : Found} (hd : c.Upto (d.advance 1)) :
    c.rest = .scalar '{' :: t → Reads strict .block (c.advance 1) f d →
    Reads strict (.attribute ⟨none, .written (c.spanTo _ hd) none none⟩) c f (d.advance 1)
  | attributeName {c q : Cursor} {n : Nat} (hn : c.Upto (c.advance n)) :
    n = Lexeme.attributeNameLength c.rest → 0 < n → (c.advance n).Skips q →
    q.rest.head? ≠ some (.scalar '=') →
    Reads strict (.attribute ⟨some (c.rest.take n),
      .written (c.spanTo _ hn) (some (c.rest.take n)) none⟩) c {} (c.advance n)
  | attributeValue {c q v e : Cursor} {n : Nat} {t : Text} {w : AttributeValue} {f : Found}
      (he : c.Upto e) :
    n = Lexeme.attributeNameLength c.rest → 0 < n → (c.advance n).Skips q →
    q.rest = .scalar '=' :: t → (q.advance 1).Skips v → Reads strict (.value w) v f e →
    Reads strict (.attribute ⟨some (c.rest.take n),
      .written (c.spanTo e he) (some (c.rest.take n)) (some w)⟩) c f e
  | valueQuoted {c : Cursor} {x : CodePoint} {t : Text} {n : Nat}
      (hn : c.Upto (c.advance (n + 2))) :
    c.rest = x :: t → Lexeme.isQuote x = true → Text.offsetOf? [x] t = some n →
    Reads strict (.value (.quoted (c.spanTo _ hn))) c {} (c.advance (n + 2))
  | valueContainer {c d : Cursor} {t : Text} {f : Found} (hd : (c.advance 1).Upto d)
      (hc : c.Upto (d.advance 1)) :
    c.rest = .scalar '{' :: t → Reads strict .block (c.advance 1) f d →
    Reads strict (.value (.container (c.spanTo _ hc) ((c.advance 1).spanTo d hd))) c f (d.advance 1)
  | valueElement {c d : Cursor} {t : Text} {f : Found} (hd : c.Upto d) :
    c.rest = .scalar '<' :: t → Reads strict .element c f d →
    Reads strict (.value (.element (c.spanTo d hd))) c f d
  | childrenBlock {name : Text} {c d e : Cursor} {t : Text} {f g : Found} :
    c.rest = .scalar '{' :: t → Reads strict .block (c.advance 1) f d →
    Reads strict (.children name) (d.advance 1) g e → Reads strict (.children name) c (f ++ g) e
  | childrenClose {name : Text} {c d : Cursor} {t : Text} {n : Nat} :
    c.rest = .scalar '<' :: t → (c.advance 1).Skips d → d.rest.startsWith "/" = true →
    Text.offsetOf? ">" d.rest = some n → Text.trim ((d.rest.take n).drop 1) = name →
    Reads strict (.children name) c {} (d.advance (n + 1))
  | childrenElement {name : Text} {c d e k : Cursor} {t : Text} {f g : Found} :
    c.rest = .scalar '<' :: t → (c.advance 1).Skips d → d.rest.startsWith "/" = false →
    Reads strict .element c f e → Reads strict (.children name) e g k →
    Reads strict (.children name) c (f ++ g) k
  | childrenText {name : Text} {c e : Cursor} {x : CodePoint} {t : Text} {g : Found} :
    c.rest = x :: t → x.is '{' = false → x.is '<' = false →
    Reads strict (.children name)
      (c.advance (Text.countWhile (fun y => !(y.is '{' || y.is '<')) t + 1)) g e →
    Reads strict (.children name) c g e

end Document

/-- Blanks and comments in front of code do not change what is read. -/
theorem Document.Reads.behind_skipped {strict nested : Bool} {opened : List Document.Opened}
    {prev : Previous} {c k : Cursor} {g : Found}
    (h : Reads strict (.code nested opened prev) c g k) :
    ∃ d, c.Skips d ∧ Reads strict (.code nested opened prev) d g k := by
  cases h with
  | codeEnd skips atEnd => exact ⟨_, skips, .codeEnd skips.again atEnd⟩
  | codeClose skips lead => exact ⟨_, skips, .codeClose skips.again lead⟩
  | codeTemplate skips lead inner rest =>
    exact ⟨_, skips, .codeTemplate skips.again lead inner rest⟩
  | codeOpen skips lead rest => exact ⟨_, skips, .codeOpen skips.again lead rest⟩
  | codeShut skips lead rest => exact ⟨_, skips, .codeShut skips.again lead rest⟩
  | codeElement skips lead inner rest =>
    exact ⟨_, skips, .codeElement skips.again lead inner rest⟩
  | codeDeclaration skips lead inner rest =>
    exact ⟨_, skips, .codeDeclaration skips.again lead inner rest⟩
  | codeToken skips lead plain rest =>
    exact ⟨_, skips, .codeToken skips.again lead plain rest⟩

/-! ## What a place begins -/

theorem Bracket.eq_of_ofOpener? {x : CodePoint} {b : Bracket} (h : ofOpener? x = some b) :
    x = .scalar b.opener := by
  unfold ofOpener? at h
  have isOpener := List.find?_some h
  exact CodePoint.is_iff.1 isOpener

theorem Bracket.eq_of_ofCloser? {x : CodePoint} {b : Bracket} (h : ofCloser? x = some b) :
    x = .scalar b.closer := by
  unfold ofCloser? at h
  have isCloser := List.find?_some h
  exact CodePoint.is_iff.1 isCloser

namespace Lead

/-- A word that declares something unless a call or a member access follows. -/
def Announces (topLevel : Bool) (prev : Previous) (word : Text) : Prop :=
  word = ("import" : Text) ∧ topLevel = true ∧ prev ≠ .mark "."

/-- The ways to read an ordinary token: its length, and what it is to the token
behind it. -/
inductive Lexed (topLevel : Bool) (prev : Previous) (c : Cursor) : Nat → Previous → Prop
  | string {n : Nat} : Lexeme.stringLength? c.rest = some n → Lexed topLevel prev c n .value
  | regex {n : Nat} : prev.allowsExpression = true → Lexeme.regexLength? c.rest = some n →
    Lexed topLevel prev c n .value
  | number {n : Nat} : startsNumber c.rest = true → Lexeme.numberLength? c.rest = some n →
    Lexed topLevel prev c n .value
  | word {n : Nat} : startsNumber c.rest = false → n = Lexeme.nameLength c.rest → 0 < n →
    (Announces topLevel prev (c.rest.take n) → startsDeclaration (c.advance n) = .ok false) →
    Lexed topLevel prev c n (.name (c.rest.take n))
  | punctuator {x : CodePoint} {t : Text} {p : String} : c.rest = x :: t →
    startsNumber c.rest = false → Lexeme.nameLength c.rest = 0 →
    (x.is '<' && prev.allowsExpression && startsElement t) = false →
    (prev.allowsExpression = true → Lexeme.regexLength? c.rest = none) →
    Lexeme.punctuator? c.rest = some p →
    Lexed topLevel prev c p.toList.length (prev.punctuator p)
  | other {x : CodePoint} {t : Text} : c.rest = x :: t → Lexeme.isQuote x = false →
    x.is '\x60' = false → Bracket.ofOpener? x = none → Bracket.ofCloser? x = none →
    startsNumber c.rest = false → Lexeme.nameLength c.rest = 0 →
    Lexeme.punctuator? c.rest = none → Lexed topLevel prev c 1 .value

/-- What a place begins, by what stands there. -/
inductive Begins (topLevel : Bool) (prev : Previous) (c : Cursor) : Lead c → Prop
  | template {t : Text} : c.rest = .scalar '\x60' :: t → Begins topLevel prev c .template
  | opener {b : Bracket} {t : Text} : c.rest = .scalar b.opener :: t →
    Begins topLevel prev c (.opener b)
  | closer {b : Bracket} {t : Text} : c.rest = .scalar b.closer :: t →
    Begins topLevel prev c (.closer b)
  | element {t : Text} : c.rest = .scalar '<' :: t → prev.allowsExpression = true →
    startsElement t = true → Begins topLevel prev c .element
  | declaration {k : { k : Cursor // c.Past k }} :
    Announces topLevel prev (c.rest.take (Lexeme.nameLength c.rest)) →
    k.1 = c.advance (Lexeme.nameLength c.rest) → startsDeclaration k.1 = .ok true →
    Begins topLevel prev c (.declaration k)
  | token {n : Nat} {stop : { d : Cursor // c.Past d }} {prev' : Previous} :
    stop.1 = c.advance n → Lexed topLevel prev c n prev' →
    Begins topLevel prev c (.token stop prev')

variable {topLevel : Bool} {prev : Previous} {c : Cursor} {x : CodePoint} {t : Text}
  {lead : Lead c}

theorem begins_of_lexeme {length? : Text → Option Nat}
    {bounds : ∀ {t n}, length? t = some n → 0 < n ∧ n ≤ t.length} {refusal : Refusal}
    (h : lexeme c length? bounds refusal = .ok lead)
    (lexed : ∀ n, length? c.rest = some n → Lexed topLevel prev c n .value) :
    Begins topLevel prev c lead := by
  unfold lexeme at h
  split at h
  · cases h
    exact .token rfl (lexed _ ‹_›)
  · cases h

theorem begins_of_plain {hr : c.rest = x :: t} (h : plain topLevel prev c hr = .ok lead)
    (noQuote : Lexeme.isQuote x = false) (noTemplate : x.is '\x60' = false)
    (noOpener : Bracket.ofOpener? x = none) (noCloser : Bracket.ofCloser? x = none)
    (noElement : (x.is '<' && prev.allowsExpression && startsElement t) = false)
    (noRegex : prev.allowsExpression = true → Lexeme.regexLength? c.rest = none) :
    Begins topLevel prev c lead := by
  unfold plain at h
  split at h
  · rename_i isNumber
    exact begins_of_lexeme h fun n hn => .number isNumber hn
  rename_i noNumber
  have noNumber := eq_false_of_ne_true noNumber
  split at h
  · rename_i pos
    unfold word at h
    split at h
    · rename_i announces
      split at h
      · cases h
      · cases h
        exact .declaration announces rfl ‹_›
      · rename_i noDeclaration
        cases h
        exact .token rfl (.word noNumber rfl pos fun _ => noDeclaration)
    · rename_i noAnnouncement
      cases h
      exact .token rfl (.word noNumber rfl pos fun announces => absurd announces noAnnouncement)
  · rename_i noName
    have noName : Lexeme.nameLength c.rest = 0 := by omega
    split at h
    · cases h
      exact .token rfl (.punctuator hr noNumber noName noElement noRegex ‹_›)
    · cases h
      exact .token rfl (.other hr noQuote noTemplate noOpener noCloser noNumber noName ‹_›)

theorem At.begins (h : Lead.At topLevel prev c lead) : Begins topLevel prev c lead := by
  obtain ⟨x, t, hr, h⟩ := h
  unfold read at h
  split at h
  · exact begins_of_lexeme h fun n hn => .string hn
  rename_i noQuote
  have noQuote := eq_false_of_ne_true noQuote
  split at h
  · rename_i isTemplate
    cases h
    exact .template (hr.trans (by rw [CodePoint.is_iff.1 isTemplate]))
  rename_i noTemplate
  have noTemplate := eq_false_of_ne_true noTemplate
  split at h
  · rename_i isOpener
    cases h
    exact .opener (hr.trans (by rw [Bracket.eq_of_ofOpener? isOpener]))
  · rename_i isCloser
    cases h
    exact .closer (hr.trans (by rw [Bracket.eq_of_ofCloser? isCloser]))
  rename_i noOpener noCloser
  split at h
  · rename_i isElement
    cases h
    simp only [Bool.and_eq_true] at isElement
    exact .element (hr.trans (by rw [CodePoint.is_iff.1 isElement.1.1])) isElement.1.2 isElement.2
  rename_i noElement
  have noElement := eq_false_of_ne_true noElement
  split at h
  · rename_i allowed
    split at h
    · rename_i n isRegex
      cases h
      exact .token rfl (.regex allowed isRegex)
    · rename_i noRegex
      exact begins_of_plain h noQuote noTemplate noOpener noCloser noElement fun _ => noRegex
  · rename_i forbidden
    exact begins_of_plain h noQuote noTemplate noOpener noCloser noElement fun allowed =>
      absurd allowed forbidden

/-- A place that begins with a closer begins with its mark. -/
theorem At.of_closer {b : Bracket} (h : Lead.At topLevel prev c (.closer b)) :
    ∃ t, c.rest = .scalar b.closer :: t := by
  cases h.begins with
  | closer hr => exact ⟨_, hr⟩

/-- A declaration is announced at the top level only, by a keyword that is no
member name. -/
theorem At.of_declaration {k : { k : Cursor // c.Past k }}
    (h : Lead.At topLevel prev c (.declaration k)) :
    topLevel = true ∧ prev ≠ .mark "." ∧
      c.rest.take (Lexeme.nameLength c.rest) = ("import" : Text) ∧
      k.1 = c.advance (Lexeme.nameLength c.rest) := by
  cases h.begins with
  | declaration announces isEnd => exact ⟨announces.2.1, announces.2.2, announces.1, isEnd⟩

end Lead

/-- Whether declarations can be found in a part: they stand at the top level. -/
def Document.Part.declares : Part → Bool
  | .code nested _ _ => !nested
  | .declaration _ => true
  | _ => false

theorem Document.Reads.imports_eq_nil {strict : Bool} {p : Part} {c d : Cursor} {f : Found}
    (h : Reads strict p c f d) (nested : p.declares = false) : f.imports = [] := by
  induction h with
  | codeEnd | codeClose | templateEnd | attributesNone | tagClosed | tagOpen | attributeName
  | valueQuoted | childrenClose => rfl
  | codeOpen _ _ _ ih | codeShut _ _ _ ih | codeToken _ _ _ _ ih => exact ih nested
  | templateEscape _ _ ih | templatePoint _ _ _ _ _ ih | childrenText _ _ _ _ ih
  | attributesBlock _ _ _ ih | attributeSpread _ _ _ ih | attributeValue _ _ _ _ _ _ _ ih
  | valueContainer _ _ _ _ ih | valueElement _ _ _ ih | fragment _ _ _ _ _ ih
  | elementClosed _ _ _ _ _ _ ih => exact ih rfl
  | codeTemplate _ _ _ _ ihf ihg | codeElement _ _ _ _ ihf ihg =>
    rw [Found.imports_append, ihf rfl, ihg nested]
    rfl
  | templateBlock _ _ _ ihf ihg | tagAttribute _ _ _ _ _ _ ihf ihg
  | childrenBlock _ _ _ ihf ihg | childrenElement _ _ _ _ _ ihf ihg =>
    rw [Found.imports_append, ihf rfl, ihg rfl]
    rfl
  | elementOpen _ _ _ _ _ _ _ ihf ihg =>
    rw [Found.imports_append, Found.imports_append, ihf rfl, ihg rfl]
    rfl
  | codeDeclaration _ lead =>
    have top := lead.of_declaration.1
    simp_all [Part.declares]
  | declaration => cases nested

end StyleBinding
