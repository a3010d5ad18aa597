import StyleBinding.Proofs.Reading.Outcomes

/-!
# What readers ask one another

A reader goes on from what other readers, or the same one further on, answer. Here each
reader is a tree of questions: which call it makes first, which one next when that has been
answered in a given way, and what it answers itself in the end. A tree never makes a call, so
it ends by itself. The readers are the solution of these trees: a reader answers what its
tree comes to when every question is answered by a reader (`Call.answer_eq`). So the calls
that a tree asks for are those that its reader makes.

A loop is a call of a reader by itself at the place where it goes on.
-/

namespace StyleBinding

namespace Document

open Cursor Lexeme

/-! ## Calls -/

/-- The readers: of blanks and comments, of the spaces in front of a semicolon, and one for
each part of a source. -/
inductive Reader where
  | trivia
  | spaces
  | path
  | code
  | template
  | declaration
  | importAttributes
  | element
  | tag
  | attribute
  | value
  | children
deriving DecidableEq

/-- What a reader gives besides the place where it stops. -/
abbrev Reader.Yield : Reader → Type
  | .trivia | .spaces | .path => Unit
  | .code | .template | .declaration | .importAttributes => Found
  | .element | .children => List Element
  | .tag => Tag
  | .attribute => Attribute × List Element
  | .value => AttributeValue × List Element

/-- What a call comes to: a refusal, or what was read and the place where reading stopped. -/
abbrev Reader.Answer (r : Reader) : Type := Except Refusal (r.Yield × Cursor)

/-- A call of a reader at a place. -/
inductive Call where
  | trivia (c : Cursor)
  | spaces (c : Cursor)
  | path (start : Nat) (depth : Int) (seen : Bool) (last : Text) (c : Cursor)
  | code (nested : Bool) (opened : List Opened) (prev : Previous) (c : Cursor)
  | template (start : Nat) (c : Cursor)
  | declaration (c : Cursor) (keyword : { k : Cursor // c.Past k })
  | importAttributes (c : Cursor)
  | element (c : Cursor)
  | tag (name : Text) (start : Nat) (region : Span) (c : Cursor)
  | attribute (c : Cursor)
  | value (c : Cursor)
  | children (name : Text) (start : Nat) (c : Cursor)

namespace Call

/-- The reader that is called. -/
abbrev reader : Call → Reader
  | .trivia _ => .trivia
  | .spaces _ => .spaces
  | .path .. => .path
  | .code .. => .code
  | .template .. => .template
  | .declaration .. => .declaration
  | .importAttributes _ => .importAttributes
  | .element _ => .element
  | .tag .. => .tag
  | .attribute _ => .attribute
  | .value _ => .value
  | .children .. => .children

/-- Where it starts to read. -/
def place : Call → Cursor
  | .trivia c | .spaces c | .path _ _ _ _ c | .code _ _ _ c | .template _ c | .declaration c _
  | .importAttributes c | .element c | .tag _ _ _ c | .attribute c | .value c | .children _ _ c => c

/-- What it comes to. -/
def answer : (x : Call) → x.reader.Answer
  | .trivia c => c.skipTrivia.map fun d => ((), d.1)
  | .spaces c => .ok ((), c.advance (Text.countWhile (fun x => x.is ' ' || x.is '\t') c.rest))
  | .path start depth seen last c => (findPath start depth seen last c).map fun d => ((), d.1)
  | .code nested opened prev c => codeOutcome nested opened prev c
  | .template start c => templateOutcome start c
  | .declaration c keyword => (readDeclaration c keyword).map fun r => (r.value, r.stop)
  | .importAttributes c => importAttributesOutcome c
  | .element c => elementOutcome c
  | .tag name start region c => tagOutcome name start region c
  | .attribute c => attributeOutcome c
  | .value c => valueOutcome c
  | .children name start c => childrenOutcome name start c

end Call

/-! ## Questions -/

/-- A tree of questions: a result, or a call with what to do for each answer. -/
inductive Asks (α : Type) where
  | done (a : α)
  | ask (x : Call) (behind : x.reader.Answer → Asks α)

namespace Asks

variable {α : Type}

/-- What a tree comes to when the questions are answered. -/
def result (answer : (x : Call) → x.reader.Answer) : Asks α → α
  | done a => a
  | ask x behind => (behind (answer x)).result answer

/-- A call is one of the questions on the way. -/
def Mentions (answer : (x : Call) → x.reader.Answer) (y : Call) : Asks α → Prop
  | done _ => False
  | ask x behind => y = x ∨ (behind (answer x)).Mentions answer y

/-- Goes on behind what a call has read; its refusal is the result. -/
def after (x : Call) (behind : x.reader.Yield → Cursor → Asks (Except Refusal α)) :
    Asks (Except Refusal α) :=
  .ask x fun
    | .error e => .done (.error e)
    | .ok (v, d) => behind v d

/-- Ends with what a call comes to. -/
def ofCall (x : Call) : Asks x.reader.Answer := .ask x .done

/-- Ends behind what a call has read. -/
def ending (x : Call) (value : x.reader.Yield → Cursor → α) : Asks (Except Refusal α) :=
  after x fun v d => .done (.ok (value v d))

/-- Goes on at the brace that closes a block. -/
def block (c : Cursor) (behind : Found → Cursor → Asks (Except Refusal α)) :
    Asks (Except Refusal α) :=
  after (.code true [] .start c) fun f d =>
    if d.rest.isEmpty then .done (.error (.at (.expectedBeforeEnd '}') d.offset)) else behind f d

variable {answer : (x : Call) → x.reader.Answer} {x y : Call} {c : Cursor}

@[simp] theorem result_done (a : α) : (done a).result answer = a := rfl

@[simp] theorem result_after
    (behind : x.reader.Yield → Cursor → Asks (Except Refusal α)) :
    (after x behind).result answer =
      (answer x).bind fun r => (behind r.1 r.2).result answer := by
  rw [after, result]
  cases answer x <;> rfl

@[simp] theorem result_ofCall (x : Call) : (ofCall x).result answer = answer x := rfl

@[simp] theorem result_ending (value : x.reader.Yield → Cursor → α) :
    (ending x value).result answer = (answer x).map fun r => value r.1 r.2 := by
  rw [ending, result_after]
  cases answer x <;> rfl

@[simp] theorem result_block (behind : Found → Cursor → Asks (Except Refusal α)) :
    (block c behind).result Call.answer =
      (blockOutcome c).bind fun r => (behind r.1 r.2).result Call.answer := by
  rw [block, result_after, blockOutcome]
  change (codeOutcome true [] .start c).bind _ = _
  cases codeOutcome true [] .start c with
  | error e => rfl
  | ok r =>
    dsimp only [Except.bind]
    split <;> rfl

@[simp] theorem not_mentions_done (a : α) : ¬(done a).Mentions answer y := id

theorem mentions_after {behind : x.reader.Yield → Cursor → Asks (Except Refusal α)} :
    (after x behind).Mentions answer y ↔
      y = x ∨ ∃ v d, answer x = .ok (v, d) ∧ (behind v d).Mentions answer y := by
  rw [after, Mentions]
  refine or_congr_right ?_
  cases answer x with
  | error e => exact ⟨False.elim, fun ⟨_, _, same, _⟩ => by cases same⟩
  | ok r =>
    refine ⟨fun inside => ⟨r.1, r.2, rfl, inside⟩, fun ⟨v, d, same, inside⟩ => ?_⟩
    cases same
    exact inside

theorem mentions_ofCall : (ofCall x).Mentions answer y ↔ y = x := or_iff_left id

theorem mentions_ending {value : x.reader.Yield → Cursor → α} :
    (ending x value).Mentions answer y ↔ y = x := by
  rw [ending, mentions_after]
  exact or_iff_left fun ⟨_, _, _, inside⟩ => not_mentions_done _ inside

theorem mentions_block {behind : Found → Cursor → Asks (Except Refusal α)} :
    (block c behind).Mentions Call.answer y ↔ y = .code true [] .start c ∨
      ∃ f d, blockOutcome c = .ok (f, d) ∧ (behind f d).Mentions Call.answer y := by
  rw [block, mentions_after]
  refine or_congr_right (exists_congr fun f => exists_congr fun d => ?_)
  rw [blockOutcome]
  change codeOutcome true [] .start c = .ok (f, d) ∧ _ ↔ _
  cases codeOutcome true [] .start c with
  | error e => exact iff_of_false (fun both => by cases both.1) (fun both => by cases both.1)
  | ok r =>
    dsimp only [Except.bind]
    by_cases atEnd : r.2.rest.isEmpty = true
    · rw [if_pos atEnd]
      refine iff_of_false (fun both => ?_) (fun both => by cases both.1)
      obtain ⟨same, inside⟩ := both
      cases same
      rw [if_pos atEnd] at inside
      exact inside
    · rw [if_neg atEnd]
      refine and_congr_right fun same => ?_
      cases same
      rw [if_neg atEnd]

end Asks

/-! ## The readers -/

/-- Where a declaration ends that goes on to `e` and behind spaces to `s`. -/
def behindSemicolon (e s : Cursor) : Cursor :=
  if s.rest.head?.any (·.is ';') then s.advance 1 else e

namespace Call

open Asks

/-- What is asked for a declaration that starts at `c`, with a gap at `k`, and whose path is
at `q`. -/
def asksBehindPath (c k q : Cursor) : Asks (Except Refusal (Found × Cursor)) :=
  match stringLength? q.rest with
  | none => .done (.error (.at .unterminatedString q.offset))
  | some n =>
    after (.importAttributes (q.advance n)) fun f e =>
      after (.spaces e) fun _ s =>
        .done ((readClause (c.rest.take (q.offset + n - c.offset)) (q.rest.take n) c.offset).map
          fun read =>
            ({ imports := [declarationOf c k q e n read] } ++ f, behindSemicolon e s))

/-- What a call asks. -/
def asks : (x : Call) → Asks x.reader.Answer
  | .trivia c =>
    match c.rest with
    | [] => .done (.ok ((), c))
    | x :: _ =>
      if x.isBlank then ofCall (.trivia (c.advance 1))
      else
        match commentLength? c.rest with
        | some n => ofCall (.trivia (c.advance n))
        | none =>
          if c.rest.startsWith "/*" then .done (.error (.at .unterminatedComment c.offset))
          else .done (.ok ((), c))
  | .spaces c =>
    match c.rest with
    | [] => .done (.ok ((), c))
    | x :: _ =>
      if x.is ' ' || x.is '\t' then ofCall (.spaces (c.advance 1))
      else .done (.ok ((), c))
  | .path start depth seen last c =>
    after (.trivia c) fun _ d =>
      match d.rest with
      | [] => .done (.error (.at .unterminatedImport start))
      | x :: _ =>
        if isQuote x then
          match stringLength? d.rest with
          | none => .done (.error (.at .unterminatedString d.offset))
          | some n => ofCall (.path start depth true last (d.advance n))
        else if x.is '{' || x.is '}' || x.is '*' || x.is ',' then
          ofCall (.path start
            (if x.is '{' then depth + 1 else if x.is '}' then depth - 1 else depth) true last
            (d.advance 1))
        else if 0 < nameLength d.rest then
          if d.rest.take (nameLength d.rest) = ("from" : Text) ∧ depth = 0 ∧ seen = true ∧
              last ≠ ("as" : Text) then
            after (.trivia (d.advance (nameLength d.rest))) fun _ e =>
              if e.rest.head?.any isQuote then .done (.ok ((), e))
              else .done (.error (.at .expectedSpecifier e.offset))
          else
            ofCall (.path start depth true (d.rest.take (nameLength d.rest))
              (d.advance (nameLength d.rest)))
        else .done (.error (.at (.unexpectedInImport x) d.offset))
  | .code nested opened prev c =>
    after (.trivia c) fun _ d =>
      match hr : d.rest with
      | [] =>
        match opened with
        | o :: _ => .done (.error (.at (.expectedBeforeEnd o.bracket.closer) d.offset))
        | [] =>
          if nested then .done (.error (.at (.expectedBeforeEnd '}') d.offset))
          else .done (.ok ({}, d))
      | _ :: _ =>
        match Lead.read (!nested && opened.isEmpty) prev d hr with
        | .error e => .done (.error e)
        | .ok .template =>
          after (.template d.offset (d.advance 1)) fun f e =>
            ending (.code nested opened .value e) fun g s => (f ++ g, s)
        | .ok (.opener b) =>
          ofCall (.code nested (⟨b, b = .round && prev.opensHead⟩ :: opened)
            (.mark b.opener.toString) (d.advance 1))
        | .ok (.closer b) =>
          match opened with
          | [] =>
            if nested && b = .curly then .done (.ok ({}, d))
            else .done (.error (.at (.unexpectedCloser b.closer) d.offset))
          | o :: outer =>
            if o.bracket = b then
              ofCall (.code nested outer (if o.head then .head else .mark b.closer.toString)
                (d.advance 1))
            else .done (.error (.at (.mismatchedCloser o.bracket.closer b.closer) d.offset))
        | .ok .element =>
          after (.element d) fun f e =>
            ending (.code nested opened .value e) fun g s =>
              (({ elements := f } : Found) ++ g, s)
        | .ok (.declaration keyword) =>
          after (.declaration d keyword) fun f e =>
            ending (.code nested opened (.mark ";") e) fun g s => (f ++ g, s)
        | .ok (.token stop prev') => ofCall (.code nested opened prev' stop.1)
  | .template start c =>
    match c.rest with
    | [] => .done (.error (.at .unterminatedTemplate start))
    | x :: t =>
      if x.is '\\' then
        match t with
        | [] => .done (.error (.at .unterminatedTemplate start))
        | _ :: _ => ofCall (.template start (c.advance 2))
      else if x.is '\x60' then .done (.ok ({}, c.advance 1))
      else if c.rest.startsWith "$\x7b" then
        block (c.advance 2) fun f b =>
          ending (.template start (b.advance 1)) fun g d => (f ++ g, d)
      else ofCall (.template start (c.advance 1))
  | .declaration c keyword =>
    after (.trivia keyword.1) fun _ p =>
      if p.rest.head?.any isQuote then asksBehindPath c keyword.1 p
      else after (.path c.offset 0 false [] p) fun _ q => asksBehindPath c keyword.1 q
  | .importAttributes c =>
    after (.trivia c) fun _ d =>
      if d.rest.take (nameLength d.rest) = ("with" : Text) ∨
          d.rest.take (nameLength d.rest) = ("assert" : Text) then
        after (.trivia (d.advance (nameLength d.rest))) fun _ b =>
          match b.rest with
          | [] => .done (.ok ({}, c))
          | x :: _ =>
            if x.is '{' then block (b.advance 1) fun f e => .done (.ok (f, e.advance 1))
            else .done (.ok ({}, c))
      else .done (.ok ({}, c))
  | .element c =>
    match c.rest with
    | [] => .done (.error (.at .expectedElementName c.offset))
    | _ :: _ =>
      after (.trivia (c.advance 1)) fun _ d =>
        match d.rest with
        | [] => .done (.error (.at .expectedElementName d.offset))
        | x :: _ =>
          if x.is '>' then
            ending (.children [] c.offset (d.advance 1)) fun es e =>
              (elementOf [] c e
                { region := .point d.offset, selfClosing := false } :: es, e)
          else if 0 < tagNameLength d.rest then
            after (.tag (d.rest.take (tagNameLength d.rest)) c.offset
                (.point (d.offset + tagNameLength d.rest))
                (d.advance (tagNameLength d.rest))) fun tag e =>
              if tag.selfClosing then
                .done (.ok (elementOf (d.rest.take (tagNameLength d.rest)) c e tag ::
                  tag.elements, e))
              else
                ending (.children (d.rest.take (tagNameLength d.rest)) c.offset e) fun es s =>
                  (elementOf (d.rest.take (tagNameLength d.rest)) c s tag ::
                    tag.elements ++ es, s)
          else .done (.error (.at .expectedElementName d.offset))
  | .tag name start region c =>
    after (.trivia c) fun _ d =>
      match d.rest with
      | [] => .done (.error (.at (.unterminatedElement name) start))
      | x :: _ =>
        if d.rest.startsWith "/>" then .done (.ok ({ region, selfClosing := true }, d.advance 2))
        else if x.is '>' then .done (.ok ({ region, selfClosing := false }, d.advance 1))
        else
          after (.attribute d) fun a e =>
            ending (.tag name start (region.extendTo e.offset) e) fun tag s =>
              ({ tag with
                attributes := a.1 :: tag.attributes
                elements := a.2 ++ tag.elements }, s)
  | .attribute c =>
    match c.rest with
    | [] => .done (.error (.at .expectedAttributeValue c.offset))
    | x :: _ =>
      if x.is '{' then
        block (c.advance 1) fun f b =>
          .done (.ok ((⟨none, .written ((Span.point c.offset).extendTo (b.offset + 1)) none none⟩,
            f.elements), b.advance 1))
      else if 0 < attributeNameLength c.rest then
        let name := c.rest.take (attributeNameLength c.rest)
        let e := c.advance (attributeNameLength c.rest)
        let bare : Asks (Except Refusal ((Attribute × List Element) × Cursor)) :=
          .done (.ok ((⟨some name, .written ((Span.point c.offset).extendTo e.offset) (some name)
            none⟩, []), e))
        after (.trivia e) fun _ q =>
          match q.rest with
          | [] => bare
          | y :: _ =>
            if y.is '=' then
              after (.trivia (q.advance 1)) fun _ v =>
                ending (.value v) fun r s =>
                  ((⟨some name, .written ((Span.point c.offset).extendTo s.offset)
                    (some name) (some r.1)⟩, r.2), s)
            else bare
      else .done (.error (.at (.unexpectedInElement x) c.offset))
  | .value c =>
    match c.rest with
    | [] => .done (.error (.at .expectedAttributeValue c.offset))
    | x :: t =>
      if isQuote x then
        match Text.offsetOf? [x] t with
        | none => .done (.error (.at .unterminatedAttributeString c.offset))
        | some n =>
          .done (.ok ((.quoted ((Span.point c.offset).extendTo (c.offset + (n + 2))), []),
            c.advance (n + 2)))
      else if x.is '{' then
        block (c.advance 1) fun f b =>
          .done (.ok ((.container ((Span.point c.offset).extendTo (b.offset + 1))
            ((Span.point (c.offset + 1)).extendTo b.offset), f.elements), b.advance 1))
      else if x.is '<' then
        ending (.element c) fun es e =>
          ((.element ((Span.point c.offset).extendTo e.offset), es), e)
      else .done (.error (.at .expectedAttributeValue c.offset))
  | .children name start c =>
    match c.rest with
    | [] => .done (.error (.at (.unterminatedElement name) start))
    | x :: t =>
      if x.is '{' then
        block (c.advance 1) fun f b =>
          ending (.children name start (b.advance 1)) fun es d => (f.elements ++ es, d)
      else if x.is '<' then
        after (.trivia (c.advance 1)) fun _ d =>
          if d.rest.startsWith "/" then
            match Text.offsetOf? ">" d.rest with
            | none => .done (.error (.at (.unterminatedClosingTag name) c.offset))
            | some n =>
              if Text.trim ((d.rest.take n).drop 1) = name then
                .done (.ok ([], d.advance (n + 1)))
              else
                .done (.error (.at
                  (.mismatchedClosingTag name (Text.trim ((d.rest.take n).drop 1))) c.offset))
          else
            after (.element c) fun es e =>
              ending (.children name start e) fun fs s => (es ++ fs, s)
      else
        ofCall (.children name start
          (c.advance (Text.countWhile (fun y => !(y.is '{' || y.is '<')) t + 1)))

/-! ## The readers as solutions -/

@[simp] theorem result_trivia {α : Type} (c : Cursor)
    (behind : Unit → Cursor → Asks (Except Refusal α)) :
    (after (trivia c) behind).result answer =
      c.skipTrivia.bind fun d => (behind () d.1).result answer := by
  rw [result_after, answer]
  cases c.skipTrivia <;> rfl

theorem answer_trivia (c : Cursor) : (trivia c).answer = (trivia c).asks.result answer := by
  simp only [answer, asks]
  obtain ⟨o, _ | ⟨x, t⟩⟩ := c
  · rw [skipTrivia]
    rfl
  rw [skipTrivia]
  dsimp only
  by_cases blank : x.isBlank = true
  · rw [if_pos blank, if_pos blank, result_ofCall, answer]
    cases (advance ⟨o, x :: t⟩ 1).skipTrivia <;> rfl
  rw [if_neg blank, if_neg blank]
  split
  · rename_i n hn
    simp only [hn]
    rw [result_ofCall, answer]
    cases (advance ⟨o, x :: t⟩ n).skipTrivia <;> rfl
  · rename_i hn
    simp only [hn]
    split_ifs <;> rfl

theorem answer_spaces (c : Cursor) : (spaces c).answer = (spaces c).asks.result answer := by
  obtain ⟨o, _ | ⟨x, t⟩⟩ := c
  · rfl
  simp only [asks]
  split_ifs with space
  · rw [result_ofCall]
    simp only [answer, Text.countWhile, if_pos space]
    rw [advance_advance, Nat.add_comm]
    rfl
  · simp only [answer, Text.countWhile, if_neg space, result_done, advance_zero]

theorem answer_path (start : Nat) (depth : Int) (seen : Bool) (last : Text) (c : Cursor) :
    (path start depth seen last c).answer =
      (path start depth seen last c).asks.result answer := by
  simp only [answer, asks, result_trivia]
  rw [findPath]
  cases c.skipTrivia with
  | error e => rfl
  | ok skipped =>
    obtain ⟨⟨o, _ | ⟨x, t⟩⟩, hd⟩ := skipped
    · rfl
    dsimp only [Except.bind]
    by_cases quote : isQuote x = true
    · simp only [if_pos quote]
      split
      · rename_i hs
        simp only [hs]
        rfl
      · rename_i n hs
        simp only [hs]
        rw [result_ofCall, answer]
        cases findPath start depth true last (advance ⟨o, x :: t⟩ n) <;> rfl
    simp only [if_neg quote]
    by_cases mark : (x.is '{' || x.is '}' || x.is '*' || x.is ',') = true
    · simp only [if_pos mark]
      rw [result_ofCall, answer]
      cases findPath start (if x.is '{' then depth + 1 else if x.is '}' then depth - 1 else depth)
        true last (advance ⟨o, x :: t⟩ 1) <;> rfl
    simp only [if_neg mark]
    by_cases name : 0 < nameLength (x :: t)
    · simp only [dif_pos name, if_pos name]
      split_ifs with keyword
      · rw [result_trivia]
        cases (advance ⟨o, x :: t⟩ (nameLength (x :: t))).skipTrivia with
        | error e => rfl
        | ok skipped =>
          dsimp only [Except.bind]
          split_ifs <;> rfl
      · rw [result_ofCall, answer]
        cases findPath start depth true ((x :: t).take (nameLength (x :: t)))
          (advance ⟨o, x :: t⟩ (nameLength (x :: t))) <;> rfl
    · simp only [dif_neg name, if_neg name]
      rfl

theorem answer_code (nested : Bool) (opened : List Opened) (prev : Previous) (c : Cursor) :
    (code nested opened prev c).answer = (code nested opened prev c).asks.result answer := by
  simp only [answer, asks, result_trivia]
  cases skips : c.skipTrivia with
  | error e =>
    rw [codeOutcome, readCode, skips]
    rfl
  | ok skipped =>
    obtain ⟨⟨o, _ | ⟨x, t⟩⟩, hd⟩ := skipped
    · rw [codeOutcome, readCode, skips]
      cases opened with
      | nil => cases nested <;> rfl
      | cons => rfl
    dsimp only [Except.bind]
    cases begins : Lead.read (!nested && opened.isEmpty) prev ⟨o, x :: t⟩ rfl with
    | error e =>
      rw [codeOutcome, readCode, skips]
      dsimp only
      rw [begins]
      rfl
    | ok lead =>
      rw [codeOutcome_eq ⟨hd, skips⟩ ⟨x, t, rfl, begins⟩]
      cases lead with
      | template => simp only [outcomeBehind, result_after, result_ending, answer]
      | opener b => rfl
      | closer b =>
        cases opened with
        | nil =>
          simp only [outcomeBehind]
          split_ifs <;> rfl
        | cons o outer =>
          simp only [outcomeBehind]
          by_cases matching : o.bracket = b
          · rw [if_pos matching, if_pos matching, result_ofCall, answer]
          · rw [if_neg matching, if_neg matching]
            rfl
      | element => simp only [outcomeBehind, result_after, result_ending, answer]
      | declaration keyword => simp only [outcomeBehind, result_after, result_ending, answer]
      | token stop prev' => rfl

theorem answer_template (start : Nat) (c : Cursor) :
    (template start c).answer = (template start c).asks.result answer := by
  simp only [answer, asks]
  obtain ⟨o, _ | ⟨x, t⟩⟩ := c
  · rw [templateOutcome, readTemplate]
    rfl
  dsimp only
  by_cases escape : x.is '\\' = true
  · rw [if_pos escape]
    cases t with
    | nil =>
      rw [templateOutcome, readTemplate]
      dsimp only
      rw [if_pos escape]
      rfl
    | cons y t =>
      rw [CodePoint.is_iff.1 escape, templateOutcome_escape rfl, result_ofCall, answer]
  rw [if_neg escape]
  by_cases closes : x.is '\x60' = true
  · rw [if_pos closes, templateOutcome, readTemplate]
    dsimp only
    rw [if_neg escape, if_pos closes]
    rfl
  rw [if_neg closes]
  by_cases opens : Text.startsWith (x :: t) "$\x7b" = true
  · rw [if_pos opens]
    obtain ⟨u, hr⟩ := List.isPrefixOf_iff_prefix.1 opens
    have hr : x :: t = .scalar '$' :: .scalar '{' :: u := hr.symm
    rw [templateOutcome_block hr, result_block]
    simp only [result_ending, answer]
  · rw [if_neg opens, templateOutcome_point rfl (Bool.eq_false_iff.2 escape)
      (Bool.eq_false_iff.2 closes) (Bool.eq_false_iff.2 opens), result_ofCall, answer]

theorem skipSemicolon_eq (c : Cursor) : c.skipSemicolon.1 =
    behindSemicolon c (c.advance (Text.countWhile (fun x => x.is ' ' || x.is '\t') c.rest)) := by
  rw [behindSemicolon, advance_advance]
  unfold skipSemicolon
  dsimp only [advance]
  split
  · rename_i atEnd
    simp [atEnd]
  · rename_i x t hr
    simp only [hr, List.head?_cons, Option.any_some]
    split_ifs <;> rfl

theorem answer_declaration_of_path {c p q : Cursor} {keyword : { k : Cursor // c.Past k }}
    {hp : keyword.1.Upto p} {hq : p.Upto q} (skips : keyword.1.skipTrivia = .ok ⟨p, hp⟩)
    (isPath : (if p.rest.head?.any isQuote then .ok ⟨p, .refl p⟩
      else findPath c.offset 0 false [] p) = .ok ⟨q, hq⟩) :
    (declaration c keyword).answer = (asksBehindPath c keyword.1 q).result answer := by
  rw [answer, readDeclaration, asksBehindPath]
  simp only [skips, isPath]
  split
  · rename_i hs
    simp only [hs]
    rfl
  · rename_i n hs
    simp only [hs, result_after, answer, importAttributesOutcome]
    cases readImportAttributes (q.advance n) with
    | error e => rfl
    | ok a =>
      dsimp only [Except.map, Except.bind]
      rw [result_done, ← skipSemicolon_eq]
      cases readClause (c.rest.take (q.offset + n - c.offset)) (q.rest.take n) c.offset with
      | error e => rfl
      | ok read =>
        simp only [declarationOf, spanTo_eq]
        rfl

theorem answer_declaration (c : Cursor) (keyword : { k : Cursor // c.Past k }) :
    (declaration c keyword).answer = (declaration c keyword).asks.result answer := by
  rw [asks, result_trivia]
  cases skips : keyword.1.skipTrivia with
  | error e =>
    rw [answer, readDeclaration, skips]
    rfl
  | ok skipped =>
    obtain ⟨p, hp⟩ := skipped
    dsimp only [Except.bind]
    by_cases quoted : p.rest.head?.any isQuote = true
    · rw [if_pos quoted]
      exact answer_declaration_of_path skips (if_pos quoted)
    · rw [if_neg quoted, result_after, answer]
      cases isPath : findPath c.offset 0 false [] p with
      | error e =>
        rw [answer, readDeclaration, skips]
        dsimp only
        rw [if_neg quoted, isPath]
        rfl
      | ok found => exact answer_declaration_of_path skips ((if_neg quoted).trans isPath)

theorem answer_importAttributes (c : Cursor) :
    (importAttributes c).answer = (importAttributes c).asks.result answer := by
  simp only [answer, asks, result_trivia]
  cases skips : c.skipTrivia with
  | error e =>
    rw [importAttributesOutcome, readImportAttributes, skips]
    rfl
  | ok skipped =>
    obtain ⟨d, hd⟩ := skipped
    dsimp only [Except.bind]
    by_cases word : d.rest.take (nameLength d.rest) = ("with" : Text) ∨
        d.rest.take (nameLength d.rest) = ("assert" : Text)
    · rw [if_pos word, result_trivia]
      cases skips' : (d.advance (nameLength d.rest)).skipTrivia with
      | error e =>
        rw [importAttributesOutcome, readImportAttributes, skips]
        dsimp only
        rw [if_pos word, skips']
        rfl
      | ok skipped =>
        obtain ⟨⟨o, _ | ⟨x, t⟩⟩, hb⟩ := skipped
        · rw [importAttributesOutcome, readImportAttributes, skips]
          dsimp only
          rw [if_pos word, skips']
          rfl
        dsimp only [Except.bind]
        by_cases brace : x.is '{' = true
        · rw [if_pos brace, importAttributesOutcome_block
              ⟨d, ⟨hd, skips⟩, word, ⟨hb, skips'⟩⟩ (congrArg (· :: t) (CodePoint.is_iff.1 brace)),
            result_block]
          cases blockOutcome (advance ⟨o, x :: t⟩ 1) <;> rfl
        · rw [importAttributesOutcome, readImportAttributes, skips]
          dsimp only
          rw [if_pos word, skips']
          dsimp only
          rw [if_neg brace, if_neg brace]
          rfl
    · rw [importAttributesOutcome, readImportAttributes, skips]
      dsimp only
      rw [if_neg word, if_neg word]
      rfl

theorem answer_element (c : Cursor) :
    (element c).answer = (element c).asks.result answer := by
  simp only [answer, asks]
  obtain ⟨o, _ | ⟨x, t⟩⟩ := c
  · rw [elementOutcome, readElement]
    rfl
  dsimp only
  rw [result_trivia]
  cases skips : (advance ⟨o, x :: t⟩ 1).skipTrivia with
  | error e =>
    rw [elementOutcome, readElement]
    dsimp only
    rw [skips]
    rfl
  | ok skipped =>
    obtain ⟨⟨p, _ | ⟨y, u⟩⟩, hd⟩ := skipped
    · rw [elementOutcome, readElement]
      dsimp only
      rw [skips]
      rfl
    dsimp only [Except.bind]
    by_cases closes : y.is '>' = true
    · rw [if_pos closes, elementOutcome_fragment (List.cons_ne_nil x t) ⟨hd, skips⟩
        (congrArg (· :: u) (CodePoint.is_iff.1 closes)), result_ending, answer]
    rw [if_neg closes]
    by_cases name : 0 < tagNameLength (y :: u)
    · rw [if_pos name, elementOutcome_named (List.cons_ne_nil x t) ⟨hd, skips⟩ rfl name,
        result_after, answer]
      refine congrArg (Except.bind _) (funext fun r => ?_)
      by_cases closed : r.1.selfClosing = true
      · rw [if_pos closed, if_pos closed]
        rfl
      · rw [if_neg closed, if_neg closed, result_ending]
        rfl
    · rw [if_neg name, elementOutcome, readElement]
      dsimp only
      rw [skips]
      dsimp only
      rw [if_neg closes, dif_neg name]
      rfl

theorem answer_tag (name : Text) (start : Nat) (region : Span) (c : Cursor) :
    (tag name start region c).answer = (tag name start region c).asks.result answer := by
  simp only [answer, asks, result_trivia]
  cases skips : c.skipTrivia with
  | error e =>
    rw [tagOutcome, readTag, skips]
    rfl
  | ok skipped =>
    obtain ⟨⟨o, _ | ⟨x, t⟩⟩, hd⟩ := skipped
    · rw [tagOutcome, readTag, skips]
      rfl
    dsimp only [Except.bind]
    by_cases slash : Text.startsWith (x :: t) "/>" = true
    · rw [if_pos slash, tagOutcome, readTag, skips]
      dsimp only
      rw [dif_pos slash]
      rfl
    rw [if_neg slash]
    by_cases closes : x.is '>' = true
    · rw [if_pos closes, tagOutcome, readTag, skips]
      dsimp only
      rw [dif_neg slash, if_pos closes]
      rfl
    · rw [if_neg closes, tagOutcome_attribute ⟨hd, skips⟩ rfl (Bool.eq_false_iff.2 slash)
        (Bool.eq_false_iff.2 closes)]
      simp only [result_after, result_ending, answer]

theorem answer_attribute (c : Cursor) :
    (Call.attribute c).answer = (Call.attribute c).asks.result answer := by
  simp only [answer, asks]
  obtain ⟨o, _ | ⟨x, t⟩⟩ := c
  · rw [attributeOutcome, readAttribute]
    rfl
  dsimp only
  by_cases brace : x.is '{' = true
  · rw [if_pos brace, attributeOutcome_spread (congrArg (· :: t) (CodePoint.is_iff.1 brace)),
      result_block]
    cases blockOutcome (advance ⟨o, x :: t⟩ 1) <;> rfl
  rw [if_neg brace]
  by_cases name : 0 < attributeNameLength (x :: t)
  · rw [if_pos name, result_trivia]
    cases skips : (advance ⟨o, x :: t⟩ (attributeNameLength (x :: t))).skipTrivia with
    | error e =>
      rw [attributeOutcome, readAttribute]
      dsimp only
      rw [if_neg brace, dif_pos name, skips]
      rfl
    | ok skipped =>
      obtain ⟨⟨p, _ | ⟨y, u⟩⟩, hq⟩ := skipped
      · rw [attributeOutcome, readAttribute]
        dsimp only
        rw [if_neg brace, dif_pos name, skips]
        simp only [Except.map, Except.bind, spanTo_eq]
        rfl
      dsimp only [Except.bind]
      by_cases equals : y.is '=' = true
      · rw [if_pos equals, result_trivia]
        cases skips' : (advance ⟨p, y :: u⟩ 1).skipTrivia with
        | error e =>
          rw [attributeOutcome, readAttribute]
          dsimp only
          rw [if_neg brace, dif_pos name, skips]
          dsimp only
          rw [if_pos equals, skips']
          rfl
        | ok skipped =>
          obtain ⟨v, hv⟩ := skipped
          rw [attributeOutcome_value rfl name ⟨hq, skips⟩
            (congrArg (· :: u) (CodePoint.is_iff.1 equals)) ⟨hv, skips'⟩]
          dsimp only [Except.bind]
          rw [result_ending, answer]
      · rw [attributeOutcome, readAttribute]
        dsimp only
        rw [if_neg brace, dif_pos name, skips]
        dsimp only
        rw [if_neg equals, if_neg equals]
        simp only [Except.map, spanTo_eq]
        rfl
  · rw [if_neg name, attributeOutcome, readAttribute]
    dsimp only
    rw [if_neg brace, dif_neg name]
    rfl

theorem answer_value (c : Cursor) : (value c).answer = (value c).asks.result answer := by
  simp only [answer, asks]
  obtain ⟨o, _ | ⟨x, t⟩⟩ := c
  · rw [valueOutcome, readValue]
    rfl
  dsimp only
  by_cases quote : isQuote x = true
  · rw [if_pos quote, valueOutcome, readValue]
    dsimp only
    rw [if_pos quote]
    split
    · rename_i hf
      simp only [hf]
      rfl
    · rename_i n hf
      simp only [hf, Except.map, spanTo_eq]
      rfl
  rw [if_neg quote]
  by_cases brace : x.is '{' = true
  · rw [if_pos brace, valueOutcome_container (congrArg (· :: t) (CodePoint.is_iff.1 brace)),
      result_block]
    cases blockOutcome (advance ⟨o, x :: t⟩ 1) <;> rfl
  rw [if_neg brace]
  by_cases less : x.is '<' = true
  · rw [if_pos less, valueOutcome_element (congrArg (· :: t) (CodePoint.is_iff.1 less)),
      result_ending, answer]
  · rw [if_neg less, valueOutcome, readValue]
    dsimp only
    rw [if_neg quote, if_neg brace, if_neg less]
    rfl

theorem answer_children (name : Text) (start : Nat) (c : Cursor) :
    (children name start c).answer = (children name start c).asks.result answer := by
  simp only [answer, asks]
  obtain ⟨o, _ | ⟨x, t⟩⟩ := c
  · rw [childrenOutcome, readChildren]
    rfl
  dsimp only
  by_cases brace : x.is '{' = true
  · rw [if_pos brace, childrenOutcome_block (congrArg (· :: t) (CodePoint.is_iff.1 brace)),
      result_block]
    simp only [result_ending, answer]
  rw [if_neg brace]
  by_cases less : x.is '<' = true
  · rw [if_pos less, result_trivia]
    cases skips : (advance ⟨o, x :: t⟩ 1).skipTrivia with
    | error e =>
      rw [childrenOutcome, readChildren]
      dsimp only
      rw [if_neg brace, if_pos less, skips]
      rfl
    | ok skipped =>
      obtain ⟨d, hd⟩ := skipped
      dsimp only [Except.bind]
      by_cases closing : d.rest.startsWith "/" = true
      · rw [if_pos closing, childrenOutcome, readChildren]
        dsimp only
        rw [if_neg brace, if_pos less, skips]
        dsimp only
        rw [if_pos closing]
        split
        · rename_i hf
          simp only [hf]
          rfl
        · rename_i n hf
          simp only [hf]
          split_ifs <;> rfl
      · rw [if_neg closing, childrenOutcome_element (congrArg (· :: t) (CodePoint.is_iff.1 less))
          ⟨hd, skips⟩ (Bool.eq_false_iff.2 closing)]
        simp only [result_after, result_ending, answer]
  · rw [if_neg less, childrenOutcome_text rfl (Bool.eq_false_iff.2 brace)
      (Bool.eq_false_iff.2 less), result_ofCall, answer]

/-- What a call comes to is the result of what it asks, when other calls answer. -/
theorem answer_eq : (x : Call) → x.answer = x.asks.result answer
  | .trivia c => answer_trivia c
  | .spaces c => answer_spaces c
  | .path start depth seen last c => answer_path start depth seen last c
  | .code nested opened prev c => answer_code nested opened prev c
  | .template start c => answer_template start c
  | .declaration c keyword => answer_declaration c keyword
  | .importAttributes c => answer_importAttributes c
  | .element c => answer_element c
  | .tag name start region c => answer_tag name start region c
  | .attribute c => answer_attribute c
  | .value c => answer_value c
  | .children name start c => answer_children name start c

end Call

end Document

end StyleBinding
