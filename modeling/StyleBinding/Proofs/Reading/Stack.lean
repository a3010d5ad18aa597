import Mathlib.Logic.Relation
import StyleBinding.Proofs.Import.Walk
import StyleBinding.Proofs.Reading.Completeness

/-!
# The stack of brackets

Nested code is read token by token with the brackets that are open on a stack.
`Scan.Step` is one token of it, with exactly the premises of the matching rule of
`Reads`, and `Scan.Closes` the steps up to the first state in which no bracket is
open. Where nested code is read with brackets open, they are closed
(`Reads.closes`), and there is one place where they are (`Scan.Closes.unique`).
-/

namespace StyleBinding

open Cursor

/-- What a place in a script begins is one thing. -/
theorem Lead.At.unique {topLevel : Bool} {prev : Previous} {c : Cursor} {l m : Lead c}
    (h : Lead.At topLevel prev c l) (k : Lead.At topLevel prev c m) : l = m := by
  obtain ⟨x, t, hr, readL⟩ := h
  obtain ⟨y, u, hr', readM⟩ := k
  obtain ⟨rfl, rfl⟩ := List.cons.inj (hr.symm.trans hr')
  exact Except.ok.inj (readL.symm.trans readM)

namespace Document

/-- A state in which nested code is read: the brackets that are open, the token
before, and the place. -/
structure Scan where
  opened : List Opened
  prev : Previous
  place : Cursor

namespace Scan

/-- The state behind what a place begins, by the brackets that are open there and the
token before. -/
inductive Behind {c : Cursor} : List Opened → Previous → Lead c → Scan → Prop
  | template {opened : List Opened} {prev : Previous} {d : Cursor} {f : Found} :
    Reads false .template (c.advance 1) f d → Behind opened prev .template ⟨opened, .value, d⟩
  | opener {opened : List Opened} {prev : Previous} {b : Bracket} :
    Behind opened prev (.opener b)
      ⟨⟨b, b = .round && prev.opensHead⟩ :: opened, .mark b.opener.toString, c.advance 1⟩
  | closer {opened : List Opened} {o : Opened} {prev : Previous} :
    Behind (o :: opened) prev (.closer o.bracket)
      ⟨opened, if o.head then .head else .mark o.bracket.closer.toString, c.advance 1⟩
  | element {opened : List Opened} {prev : Previous} {d : Cursor} {f : Found} :
    Reads false .element c f d → Behind opened prev .element ⟨opened, .value, d⟩
  | token {opened : List Opened} {prev prev' : Previous} {stop : { d : Cursor // c.Past d }} :
    Behind opened prev (.token stop prev') ⟨opened, prev', stop.1⟩

/-- One token of nested code. -/
def Step (a b : Scan) : Prop :=
  ∃ (d : Cursor) (lead : Lead d), a.place.Skips d ∧ Lead.At false a.prev d lead ∧
    Behind a.opened a.prev lead b

/-- One token while brackets are open. -/
def Moves (a b : Scan) : Prop := a.opened ≠ [] ∧ a.Step b

/-- `z` is the first state behind `a` in which no bracket is open. -/
def Closes (a z : Scan) : Prop := Relation.ReflTransGen Moves a z ∧ z.opened = []

variable {a b z : Scan}

theorem Behind.past {c : Cursor} {opened : List Opened} {prev : Previous} {lead : Lead c}
    (isLead : Lead.At false prev c lead) (h : Behind opened prev lead b) : c.Past b.place := by
  obtain ⟨x, t, hr, _⟩ := isLead
  have next := past_of_cons hr
  cases h with
  | template inner => exact next.trans_upto inner.upto
  | opener | closer => exact next
  | element inner => exact inner.accepts.1
  | @token _ _ _ stop => exact stop.2

theorem Step.upto (h : a.Step b) : a.place.Upto b.place := by
  obtain ⟨d, lead, skips, isLead, behind⟩ := h
  exact skips.upto.trans (behind.past isLead).upto

theorem upto_of_moves (h : Relation.ReflTransGen Moves a z) : a.place.Upto z.place := by
  induction h with
  | refl => exact .refl _
  | tail _ step ih => exact ih.trans step.2.upto

/-- An ordinary token leaves the brackets as they are. -/
theorem Moves.token {opened : List Opened} {prev prev' : Previous} {c d : Cursor} {n : Nat}
    (nonempty : opened ≠ []) (skips : c.Skips d) (lexed : Lead.Lexed false prev d n prev') :
    Moves ⟨opened, prev, c⟩ ⟨opened, prev', d.advance n⟩ := by
  obtain ⟨past, lead⟩ := lexed.at_token
  exact ⟨nonempty, d, _, skips, lead, .token⟩

/-- One token more in front of the brackets' end. -/
theorem Closes.head (nonempty : a.opened ≠ []) (step : a.Step b) (h : b.Closes z) : a.Closes z :=
  ⟨.head ⟨nonempty, step⟩ h.1, h.2⟩

theorem Behind.unique {c : Cursor} {opened : List Opened} {prev : Previous} {lead : Lead c}
    {b' : Scan} (h : Behind opened prev lead b) (k : Behind opened prev lead b') : b = b' := by
  cases h with
  | opener | closer | token =>
    cases k
    rfl
  | @template _ _ d _ inner =>
    cases k with
    | @template _ _ d' _ inner' =>
      obtain ⟨_, reads⟩ := inner.accepts 0
      obtain ⟨_, reads'⟩ := inner'.accepts 0
      obtain rfl : d = d' := congrArg Progress.stop (Except.ok.inj (reads.symm.trans reads'))
      rfl
  | @element _ _ d _ inner =>
    cases k with
    | @element _ _ d' _ inner' =>
      obtain ⟨_, reads⟩ := inner.accepts
      obtain ⟨_, reads'⟩ := inner'.accepts
      obtain rfl : d = d' := congrArg Progress.stop (Except.ok.inj (reads.symm.trans reads'))
      rfl

/-- A step is determined by the state it starts from. -/
theorem Step.unique {b' : Scan} (h : a.Step b) (k : a.Step b') : b = b' := by
  obtain ⟨d, lead, skips, isLead, behind⟩ := h
  obtain ⟨d', lead', skips', isLead', behind'⟩ := k
  obtain rfl := skips.unique skips'
  obtain rfl := isLead.unique isLead'
  exact behind.unique behind'

end Scan

/-- Nested code that begins with an opening mark is read on behind it. -/
theorem Reads.behind_opener {strict : Bool} {opened : List Opened} {prev : Previous}
    {c d k : Cursor} {b : Bracket} {g : Found} (h : Reads strict (.code true opened prev) c g k)
    (skips : c.Skips d) (lead : Lead.At false prev d (.opener b)) :
    Reads strict (.code true (⟨b, b = .round && prev.opensHead⟩ :: opened)
      (.mark b.opener.toString)) (d.advance 1) g k := by
  cases h with
  | codeOpen skips' lead' rest =>
    obtain rfl := skips.unique skips'
    cases lead.unique lead'
    exact rest
  | codeClose skips' lead' | codeTemplate skips' lead' | codeShut skips' lead'
  | codeElement skips' lead' | codeDeclaration skips' lead' | codeToken skips' lead' =>
    obtain rfl := skips.unique skips'
    cases lead.unique lead'

/-- Where nested code is read with brackets open, they are closed, and what is left
is read behind them. -/
theorem Reads.closes {opened : List Opened} {prev : Previous} {c k : Cursor} {g : Found}
    (h : Reads false (.code true opened prev) c g k) (nonempty : opened ≠ []) :
    ∃ z f, Scan.Closes ⟨opened, prev, c⟩ z ∧ Reads false (.code true [] z.prev) z.place f k := by
  generalize part : Part.code true opened prev = p at h
  induction h generalizing opened prev with
  | codeClose =>
    cases part
    exact absurd rfl nonempty
  | codeTemplate skips lead inner _ _ ih =>
    cases part
    obtain ⟨z, f, closes, rest⟩ := ih nonempty rfl
    exact ⟨z, f, closes.head nonempty ⟨_, _, skips, lead, .template inner⟩, rest⟩
  | codeOpen skips lead _ ih =>
    cases part
    obtain ⟨z, f, closes, rest⟩ := ih (List.cons_ne_nil _ _) rfl
    exact ⟨z, f, closes.head nonempty ⟨_, _, skips, lead, .opener⟩, rest⟩
  | @codeShut _ opened o prev c d _ _ skips lead rest ih =>
    cases part
    have step : Scan.Step ⟨o :: opened, prev, c⟩
        ⟨opened, if o.head then .head else .mark o.bracket.closer.toString, d.advance 1⟩ :=
      ⟨d, .closer o.bracket, skips, lead, .closer⟩
    cases opened with
    | nil => exact ⟨_, _, ⟨.single ⟨nonempty, step⟩, rfl⟩, rest⟩
    | cons o opened =>
      obtain ⟨z, f, closes, rest⟩ := ih (List.cons_ne_nil _ _) rfl
      exact ⟨z, f, closes.head nonempty step, rest⟩
  | codeElement skips lead inner _ _ ih =>
    cases part
    obtain ⟨z, f, closes, rest⟩ := ih nonempty rfl
    exact ⟨z, f, closes.head nonempty ⟨_, _, skips, lead, .element inner⟩, rest⟩
  | codeDeclaration _ lead =>
    cases part
    cases lead.of_declaration.1
  | codeToken skips lead _ _ ih =>
    cases part
    obtain ⟨z, f, closes, rest⟩ := ih nonempty rfl
    exact ⟨z, f, closes.head nonempty ⟨_, _, skips, lead, .token⟩, rest⟩
  | _ => cases part

end Document

end StyleBinding
