import Mathlib.Logic.Relation
import StyleBinding.Proofs.Reading.Calls
import StyleBinding.Proofs.Reading.Refusals

/-!
# Readers go forward

A reader calls another one further on in the source, or at the same place if that one
comes first in a fixed order of the readers (`Call.Before`). So a reader that is called
again, by itself in a loop or through other readers, is called further on; calls end at a
depth that the length of the source bounds; and what a reader returns is a place of the
source, not in front of where it was called, and behind it for all readers that read a
part that cannot be empty.
-/

namespace StyleBinding

namespace Document

open Cursor Lexeme Asks

/-- The order of the readers that may be called at the place where the caller stands. -/
def Reader.rank : Reader → Nat
  | .trivia | .spaces | .template | .declaration | .element => 0
  | .path | .importAttributes | .value => 1
  | .attribute => 2
  | .tag | .children => 3
  | .code => 4

/-- Whether what is read has at least one code point. -/
def Reader.advances : Reader → Bool
  | .trivia | .spaces | .path | .code | .importAttributes => false
  | .template | .declaration | .element | .tag | .attribute | .value | .children => true

theorem Reader.rank_le (r : Reader) : r.rank ≤ 4 := by
  cases r <;> decide

namespace Call

variable {x y z : Call} {d : Cursor}

/-- A call asks for another one. -/
def Calls (x y : Call) : Prop := x.asks.Mentions answer y

/-- A call goes forward to another one: further on, or at least down the order of readers. -/
def Before (x y : Call) : Prop :=
  x.place.Past y.place ∨ x.place.Upto y.place ∧ y.reader.rank < x.reader.rank

theorem Before.upto (h : Before x y) : x.place.Upto y.place :=
  h.elim Past.upto And.left

theorem Before.trans (first : Before x y) (second : Before y z) : Before x z := by
  obtain past | ⟨upto, less⟩ := first
  · exact .inl (past.trans_upto second.upto)
  · obtain past | ⟨upto', less'⟩ := second
    · exact .inl (upto.trans_past past)
    · exact .inr ⟨upto.trans upto', less'.trans less⟩

/-- The same reader is called further on. -/
theorem Before.past (h : Before x y) (same : y.reader = x.reader) : x.place.Past y.place := by
  obtain past | ⟨_, less⟩ := h
  · exact past
  · rw [same] at less
    exact absurd less (Nat.lt_irrefl _)

/-! ## Where readers stop -/

theorem stop_of_map {α β : Type} {r : Except Refusal α} {f : α → β × Cursor} {b : β}
    (h : r.map f = .ok (b, d)) : ∃ a, (f a).2 = d := by
  cases r with
  | error e => cases h
  | ok a => exact ⟨a, congrArg Prod.snd (Except.ok.inj h)⟩

theorem answer_upto {v : x.reader.Yield} (h : x.answer = .ok (v, d)) : x.place.Upto d := by
  cases x with
  | trivia c | path _ _ _ _ c =>
    obtain ⟨r, rfl⟩ := stop_of_map h
    exact r.2
  | spaces c =>
    cases h
    exact upto_advance (Text.countWhile_le _ _)
  | code | importAttributes =>
    obtain ⟨r, rfl⟩ := stop_of_map h
    exact r.upto
  | template | declaration | element | tag | «attribute» | value | children =>
    obtain ⟨r, rfl⟩ := stop_of_map h
    exact r.past.upto

theorem answer_past {v : x.reader.Yield} (h : x.answer = .ok (v, d))
    (advances : x.reader.advances = true) : x.place.Past d := by
  cases x with
  | trivia | path | spaces | code | importAttributes => cases advances
  | template | declaration | element | tag | «attribute» | value | children =>
    obtain ⟨r, rfl⟩ := stop_of_map h
    exact r.past

/-- The brace that closes a block is there. -/
theorem blockOutcome_past {c : Cursor} {f : Found} (h : blockOutcome c = .ok (f, d)) :
    c.Past (d.advance 1) := by
  rw [blockOutcome] at h
  cases read : codeOutcome true [] .start c with
  | error e =>
    rw [read] at h
    cases h
  | ok r =>
    rw [read] at h
    dsimp only [Except.bind] at h
    split_ifs at h with atEnd
    cases h
    obtain ⟨x, t, hr⟩ := List.exists_cons_of_ne_nil (mt List.isEmpty_iff.2 atEnd)
    have upto : c.Upto d := answer_upto (x := .code true [] .start c) read
    exact upto.trans_past (past_of_cons hr)

/-! ## What readers call -/

theorem before_trivia {c : Cursor} (h : Calls (trivia c) y) : Before (trivia c) y := by
  obtain ⟨o, _ | ⟨x, t⟩⟩ := c
  · exact h.elim
  rw [Calls, asks] at h
  dsimp only at h
  split at h
  · rw [mentions_ofCall.1 h]
    exact .inl (past_of_cons rfl)
  · split at h
    · rename_i n hn
      rw [mentions_ofCall.1 h]
      exact .inl (past_advance (commentLength?_bounds hn).1 (commentLength?_bounds hn).2)
    · split at h <;> exact h.elim

theorem before_spaces {c : Cursor} (h : Calls (spaces c) y) : Before (spaces c) y := by
  obtain ⟨o, _ | ⟨x, t⟩⟩ := c
  · exact h.elim
  rw [Calls, asks] at h
  dsimp only at h
  split at h
  · rw [mentions_ending.1 h]
    exact .inl (past_of_cons rfl)
  · exact h.elim

theorem before_path {start : Nat} {depth : Int} {seen : Bool} {last : Text} {c : Cursor}
    (h : Calls (path start depth seen last c) y) :
    Before (path start depth seen last c) y := by
  obtain rfl | ⟨_, d, skipped, h⟩ := mentions_after.1 h
  · exact .inr ⟨.refl c, Nat.succ_pos _⟩
  have skips : c.Upto d := answer_upto (x := .trivia c) skipped
  obtain ⟨o, _ | ⟨x, t⟩⟩ := d
  · exact h.elim
  dsimp only at h
  split at h
  · split at h
    · exact h.elim
    · rename_i n hn
      rw [mentions_ofCall.1 h]
      have bounds := stringLength?_bounds hn
      exact .inl (skips.trans_past (past_advance bounds.1 bounds.2))
  split at h
  · rw [mentions_ofCall.1 h]
    exact .inl (skips.trans_past (past_of_cons rfl))
  split at h
  · rename_i name
    have past : c.Past (advance ⟨o, x :: t⟩ (nameLength (x :: t))) :=
      skips.trans_past (past_advance name (nameLength_le _))
    split at h
    · obtain rfl | ⟨_, e, _, h⟩ := mentions_after.1 h
      · exact .inl past
      · split at h <;> exact h.elim
    · rw [mentions_ofCall.1 h]
      exact .inl past
  · exact h.elim

theorem before_code {nested : Bool} {opened : List Opened} {prev : Previous} {c : Cursor}
    (h : Calls (code nested opened prev c) y) : Before (code nested opened prev c) y := by
  obtain rfl | ⟨_, d, skipped, h⟩ := mentions_after.1 h
  · exact .inr ⟨.refl c, Nat.succ_pos _⟩
  have skips : c.Upto d := answer_upto (x := .trivia c) skipped
  obtain ⟨o, _ | ⟨x, t⟩⟩ := d
  · dsimp only at h
    split at h
    · exact h.elim
    · split at h <;> exact h.elim
  have next : c.Past (advance ⟨o, x :: t⟩ 1) := skips.trans_past (past_of_cons rfl)
  dsimp only at h
  split at h
  · exact h.elim
  · obtain rfl | ⟨_, e, read, h⟩ := mentions_after.1 h
    · exact .inl next
    · rw [mentions_ending.1 h]
      exact .inl (next.trans (answer_past (x := .template _ _) read rfl))
  · rw [mentions_ofCall.1 h]
    exact .inl next
  · split at h
    · split at h <;> exact h.elim
    · split at h
      · rw [mentions_ofCall.1 h]
        exact .inl next
      · exact h.elim
  · obtain rfl | ⟨_, e, read, h⟩ := mentions_after.1 h
    · exact .inr ⟨skips, Nat.succ_pos _⟩
    · rw [mentions_ending.1 h]
      exact .inl (skips.trans_past (answer_past (x := .element _) read rfl))
  · rename_i keyword _
    obtain rfl | ⟨_, e, read, h⟩ := mentions_after.1 h
    · exact .inr ⟨skips, Nat.succ_pos _⟩
    · rw [mentions_ending.1 h]
      exact .inl (skips.trans_past (answer_past (x := .declaration _ keyword) read rfl))
  · rename_i stop _ _
    rw [mentions_ofCall.1 h]
    exact .inl (skips.trans_past stop.2)

theorem before_template {start : Nat} {c : Cursor} (h : Calls (template start c) y) :
    Before (template start c) y := by
  obtain ⟨o, _ | ⟨x, t⟩⟩ := c
  · exact h.elim
  rw [Calls, asks] at h
  dsimp only at h
  split at h
  · split at h
    · exact h.elim
    · rw [mentions_ofCall.1 h]
      exact .inl (past_advance Nat.two_pos (Nat.le_add_left 2 _))
  split at h
  · exact h.elim
  split at h
  · rename_i opens
    have past : Past ⟨o, x :: t⟩ (advance ⟨o, x :: t⟩ 2) :=
      past_advance Nat.two_pos (le_length_of_startsWith (c := ⟨o, x :: t⟩) (s := "$\x7b") opens)
    obtain rfl | ⟨_, b, read, h⟩ := mentions_block.1 h
    · exact .inl past
    · rw [mentions_ending.1 h]
      exact .inl (past.trans (blockOutcome_past read))
  · rw [mentions_ofCall.1 h]
    exact .inl (past_of_cons rfl)

theorem before_declaration {c : Cursor} {keyword : { k : Cursor // c.Past k }}
    (h : Calls (declaration c keyword) y) : Before (declaration c keyword) y := by
  have behindPath {q : Cursor} (upto : c.Past q)
      (h : (asksBehindPath c keyword.1 q).Mentions answer y) : c.Past y.place := by
    rw [asksBehindPath] at h
    split at h
    · exact h.elim
    · rename_i n hn
      have bounds := stringLength?_bounds hn
      have past : c.Past (q.advance n) := upto.trans (past_advance bounds.1 bounds.2)
      obtain rfl | ⟨_, e, read, h⟩ := mentions_after.1 h
      · exact past
      · obtain rfl | ⟨_, s, spaced, h⟩ := mentions_after.1 h
        · exact past.trans_upto (answer_upto (x := .importAttributes _) read)
        · exact h.elim
  obtain rfl | ⟨_, p, skipped, h⟩ := mentions_after.1 h
  · exact .inl keyword.2
  have past : c.Past p := keyword.2.trans_upto (answer_upto (x := .trivia _) skipped)
  split at h
  · exact .inl (behindPath past h)
  · obtain rfl | ⟨_, q, read, h⟩ := mentions_after.1 h
    · exact .inl past
    · exact .inl (behindPath (past.trans_upto (answer_upto (x := .path _ _ _ _ _) read)) h)

theorem before_importAttributes {c : Cursor} (h : Calls (importAttributes c) y) :
    Before (importAttributes c) y := by
  obtain rfl | ⟨_, d, skipped, h⟩ := mentions_after.1 h
  · exact .inr ⟨.refl c, Nat.succ_pos _⟩
  have skips : c.Upto d := answer_upto (x := .trivia c) skipped
  split at h
  · rename_i word
    have past : c.Past (d.advance (nameLength d.rest)) := by
      refine skips.trans_past (past_advance ?_ (nameLength_le _))
      by_contra none
      rw [Nat.eq_zero_of_not_pos none, List.take_zero] at word
      obtain same | same := word <;> cases same
    obtain rfl | ⟨_, b, skipped', h⟩ := mentions_after.1 h
    · exact .inl past
    have upto : c.Past b := past.trans_upto (answer_upto (x := .trivia _) skipped')
    split at h
    · exact h.elim
    · rename_i hr
      split at h
      · obtain rfl | ⟨_, e, _, h⟩ := mentions_block.1 h
        · exact .inl (upto.trans (past_of_cons hr))
        · exact h.elim
      · exact h.elim
  · exact h.elim

theorem before_element {c : Cursor} (h : Calls (element c) y) : Before (element c) y := by
  obtain ⟨o, _ | ⟨x, t⟩⟩ := c
  · exact h.elim
  have next : Past ⟨o, x :: t⟩ (advance ⟨o, x :: t⟩ 1) := past_of_cons rfl
  obtain rfl | ⟨_, d, skipped, h⟩ := mentions_after.1 h
  · exact .inl next
  have past := next.trans_upto (answer_upto (x := .trivia _) skipped)
  obtain ⟨p, _ | ⟨y, u⟩⟩ := d
  · exact h.elim
  dsimp only at h
  split at h
  · rw [mentions_ending.1 h]
    exact .inl (past.trans (past_of_cons rfl))
  split at h
  · rename_i name
    have behind := past.trans (past_advance name (tagNameLength_le _))
    obtain rfl | ⟨_, e, read, h⟩ := mentions_after.1 h
    · exact .inl behind
    split at h
    · exact h.elim
    · rw [mentions_ending.1 h]
      exact .inl (behind.trans_upto (answer_upto (x := .tag _ _ _ _) read))
  · exact h.elim

theorem before_tag {name : Text} {start : Nat} {region : Span} {c : Cursor}
    (h : Calls (tag name start region c) y) : Before (tag name start region c) y := by
  obtain rfl | ⟨_, d, skipped, h⟩ := mentions_after.1 h
  · exact .inr ⟨.refl c, Nat.succ_pos _⟩
  have skips : c.Upto d := answer_upto (x := .trivia c) skipped
  obtain ⟨o, _ | ⟨x, t⟩⟩ := d
  · exact h.elim
  dsimp only at h
  split at h
  · exact h.elim
  split at h
  · exact h.elim
  obtain rfl | ⟨_, e, read, h⟩ := mentions_after.1 h
  · exact .inr ⟨skips, Nat.lt_succ_self _⟩
  · rw [mentions_ending.1 h]
    exact .inl (skips.trans_past (answer_past (x := .attribute _) read rfl))

theorem before_attribute {c : Cursor} (h : Calls (.attribute c) y) : Before (.attribute c) y := by
  obtain ⟨o, _ | ⟨x, t⟩⟩ := c
  · exact h.elim
  rw [Calls, asks] at h
  dsimp only at h
  split at h
  · obtain rfl | ⟨_, b, _, h⟩ := mentions_block.1 h
    · exact .inl (past_of_cons rfl)
    · exact h.elim
  split at h
  · rename_i name
    have past := past_advance (c := ⟨o, x :: t⟩) name (attributeNameLength_le _)
    obtain rfl | ⟨_, q, skipped, h⟩ := mentions_after.1 h
    · exact .inl past
    have behind := past.trans_upto (answer_upto (x := .trivia _) skipped)
    split at h
    · exact h.elim
    · rename_i hr
      split at h
      · have opens := behind.trans (past_of_cons hr)
        obtain rfl | ⟨_, v, skipped', h⟩ := mentions_after.1 h
        · exact .inl opens
        · rw [mentions_ending.1 h]
          exact .inl (opens.trans_upto (answer_upto (x := .trivia _) skipped'))
      · exact h.elim
  · exact h.elim

theorem before_value {c : Cursor} (h : Calls (value c) y) : Before (value c) y := by
  obtain ⟨o, _ | ⟨x, t⟩⟩ := c
  · exact h.elim
  rw [Calls, asks] at h
  dsimp only at h
  split at h
  · split at h <;> exact h.elim
  split at h
  · obtain rfl | ⟨_, b, _, h⟩ := mentions_block.1 h
    · exact .inl (past_of_cons rfl)
    · exact h.elim
  split at h
  · rw [mentions_ending.1 h]
    exact .inr ⟨.refl _, Nat.succ_pos _⟩
  · exact h.elim

theorem before_children {name : Text} {start : Nat} {c : Cursor}
    (h : Calls (children name start c) y) : Before (children name start c) y := by
  obtain ⟨o, _ | ⟨x, t⟩⟩ := c
  · exact h.elim
  have next : Past ⟨o, x :: t⟩ (advance ⟨o, x :: t⟩ 1) := past_of_cons rfl
  rw [Calls, asks] at h
  dsimp only at h
  split at h
  · obtain rfl | ⟨_, b, read, h⟩ := mentions_block.1 h
    · exact .inl next
    · rw [mentions_ending.1 h]
      exact .inl (next.trans (blockOutcome_past read))
  split at h
  · obtain rfl | ⟨_, d, _, h⟩ := mentions_after.1 h
    · exact .inl next
    split at h
    · split at h
      · exact h.elim
      · split at h <;> exact h.elim
    · obtain rfl | ⟨_, e, read, h⟩ := mentions_after.1 h
      · exact .inr ⟨.refl _, Nat.succ_pos _⟩
      · rw [mentions_ending.1 h]
        exact .inl (answer_past (x := .element _) read rfl)
  · rw [mentions_ofCall.1 h]
    exact .inl (skipText ⟨o, x :: t⟩ rfl).2

/-- Every call goes forward to those it asks for. -/
theorem Calls.before (h : Calls x y) : Before x y := by
  cases x with
  | trivia => exact before_trivia h
  | spaces => exact before_spaces h
  | path => exact before_path h
  | code => exact before_code h
  | template => exact before_template h
  | declaration => exact before_declaration h
  | importAttributes => exact before_importAttributes h
  | element => exact before_element h
  | tag => exact before_tag h
  | «attribute» => exact before_attribute h
  | value => exact before_value h
  | children => exact before_children h

theorem before_of_transGen (h : Relation.TransGen Calls x y) : Before x y := by
  induction h with
  | single call => exact call.before
  | tail _ call ih => exact ih.trans call.before

end Call

/-! ## Depth -/

/-- What a tree of questions comes to when some of them may have no answer. -/
def Asks.result? {α : Type} (answer? : (x : Call) → Option x.reader.Answer) : Asks α → Option α
  | .done a => some a
  | .ask x behind => (answer? x).bind fun r => (behind r).result? answer?

theorem Asks.result?_eq_some {α : Type} {answer : (x : Call) → x.reader.Answer}
    {answer? : (x : Call) → Option x.reader.Answer} {t : Asks α}
    (h : ∀ y, t.Mentions answer y → answer? y = some (answer y)) :
    t.result? answer? = some (t.result answer) := by
  induction t with
  | done a => rfl
  | ask x behind ih =>
    rw [result?, h x (.inl rfl), Option.bind_some]
    exact ih (answer x) fun y inside => h y (.inr inside)

namespace Call

variable {x y : Call} {source : Text}

/-- Carries a call out by what it asks, with calls inside one another up to a depth. -/
def run : Nat → (x : Call) → Option x.reader.Answer
  | 0, _ => none
  | depth + 1, x => x.asks.result? (run depth)

/-- How deep calls inside one another can get from a call on. -/
def depth (x : Call) : Nat := 5 * x.place.rest.length + x.reader.rank

theorem Before.depth_lt (h : Before x y) : y.depth < x.depth := by
  have rank := y.reader.rank_le
  unfold depth
  obtain past | ⟨upto, less⟩ := h
  · have := past.length_lt
    omega
  · have := upto.length_le
    omega

theorem run_eq_some {n : Nat} (enough : x.depth < n) : run n x = some x.answer := by
  induction n generalizing x with
  | zero => cases enough
  | succ n ih =>
    rw [run, Asks.result?_eq_some fun y inside => ?_, ← answer_eq]
    have less := (Calls.before inside).depth_lt
    exact ih (by omega)

/-! ## Calls in a source -/

/-- A call at a place of a source. -/
def IsIn (source : Text) (x : Call) : Prop := (ofSource source).Upto x.place

/-- How a call goes that is made at a place of a source. -/
structure Descends (source : Text) (x : Call) : Prop where
  /-- It ends, with a bounded number of calls inside one another. -/
  ends : ∀ n, x.depth < n → run n x = some x.answer
  /-- It makes calls at places of the source only. -/
  inside : ∀ y, Calls x y → y.IsIn source
  /-- Where its reader goes on in a loop, it has moved forward. -/
  loops : ∀ y, Calls x y → y.reader = x.reader → x.place.offset < y.place.offset
  /-- Where its reader is called again by other readers, they have moved forward. -/
  reenters : ∀ y, Relation.TransGen Calls x y → y.reader = x.reader →
    x.place.offset < y.place.offset
  /-- It stops at a place of the source, not in front of where it was made. -/
  stops : ∀ v d, x.answer = .ok (v, d) →
    x.place.offset ≤ d.offset ∧ d.offset ≤ source.length
  /-- What cannot be empty has been read when it stops. -/
  moves : x.reader.advances = true → ∀ v d, x.answer = .ok (v, d) →
    x.place.offset < d.offset

theorem IsIn.descends (isIn : x.IsIn source) : x.Descends source where
  ends _ enough := run_eq_some enough
  inside _ call := isIn.trans call.before.upto
  loops _ call same := (call.before.past same).offset_lt
  reenters _ chain same := ((before_of_transGen chain).past same).offset_lt
  stops _ _ read := ⟨(answer_upto read).offset_le, (isIn.trans (answer_upto read)).offset_le_length⟩
  moves advances _ _ read := (answer_past read advances).offset_lt

/-- The call that reads a source. -/
def main (source : Text) : Call := .code false [] .start (codeStart source)

end Call

/-- Reading ends for every source, and goes forward all the way: in the loops, in calls that
come back to the same reader, and in what is returned. String literals, which are read
without any call, have code points too and end in the source. -/
theorem parse_descends (source : Text) :
    parse source = (Call.main source).answer.map (fun r =>
        { source, imports := r.1.imports, elements := r.1.elements }) ∧
      (∀ x, Relation.ReflTransGen Call.Calls (Call.main source) x → x.IsIn source) ∧
      (∀ x : Call, x.IsIn source → x.Descends source) ∧
      ∀ c n, (ofSource source).Upto c → stringLength? c.rest = some n →
        c.offset < c.offset + n ∧ c.offset + n ≤ source.length := by
  refine ⟨parse_eq source, fun x reached => ?_, fun x isIn => isIn.descends, fun c n upto hn => ?_⟩
  · induction reached with
    | refl => exact codeStart_upto source
    | tail _ call isIn => exact isIn.trans call.before.upto
  · have bounds := stringLength?_bounds hn
    have past : c.Past (c.advance n) := past_advance bounds.1 bounds.2
    exact ⟨past.offset_lt, (upto.trans past.upto).offset_le_length⟩

/-- A template in an expression in a template. -/
def templatesSource : Text := "\x60$\x7b\x60a\x60\x7d\x60"

/-- The reader of templates comes back to itself there by way of code. -/
theorem parse_descends_templates :
    ∃ x y : Call, x.IsIn templatesSource ∧ Relation.TransGen Call.Calls x y ∧
      x.reader = .template ∧ y.reader = .template ∧ x.place.offset < y.place.offset := by
  let code : Cursor := ⟨3, templatesSource.drop 3⟩
  have outer : Call.Calls (.template 0 ⟨1, templatesSource.drop 1⟩) (.code true [] .start code) :=
    .inl rfl
  have inner : Call.Calls (.code true [] .start code)
      (.template 3 ⟨4, templatesSource.drop 4⟩) := by
    have skipped : (Call.trivia code).answer = .ok ((), code) := by
      rw [Call.answer, skipTrivia]
      rfl
    exact mentions_after.2 (.inr ⟨(), code, skipped, .inl rfl⟩)
  have chain := (Relation.TransGen.single outer).tail inner
  have isIn : (Call.template 0 ⟨1, templatesSource.drop 1⟩).IsIn templatesSource :=
    ⟨1, by decide, rfl⟩
  obtain ⟨-, -, descends, -⟩ := parse_descends templatesSource
  exact ⟨_, _, isIn, chain, rfl, rfl, (descends _ isIn).reenters _ chain rfl⟩

end Document

end StyleBinding
