import StyleBinding.Proofs.Reading.Stack
import StyleBinding.Proofs.Reading.Tokens
import StyleBinding.Proofs.Source.Encoding

/-!
# Slots

The commas that stand in a bracket, and in no further bracket inside of it, cut what
is between its marks into slots. `Scan.Slots` follows a run of the script and notes
of every slot whether it holds a token. `Text.Encloses` says that a text is one pair
of brackets with a word in front, wherever it stands, and `Text.IsCode` that a text
is code on its own. A text that is code on its own has its slots in one way only
(`Text.IsCode.unique`).
-/

namespace StyleBinding

open Cursor Document

namespace Document.Scan

variable {base : List Opened} {filled : Bool} {a b y z : Scan} {ss ts : List Bool}

/-- A comma that stands in no bracket but those of `base`. -/
def Separates (base : List Opened) (a b : Scan) : Prop := a.opened = base ∧ b.prev = .mark ","

/-- From `a` up to `z`, the brackets of `base` stay open, and the commas that stand in
no other bracket cut the tokens into slots. Each slot says whether it holds a token;
the first one does if `filled` says that it holds one already. -/
inductive Slots (base : List Opened) : Bool → Scan → Scan → List Bool → Prop
  | done {filled : Bool} {a : Scan} : a.opened = base → Slots base filled a a [filled]
  | comma {filled : Bool} {a b z : Scan} {slots : List Bool} : a.Step b → Separates base a b →
    Slots base false b z slots → Slots base filled a z (filled :: slots)
  | token {filled : Bool} {a b z : Scan} {slots : List Bool} : a.Step b → base <:+ a.opened →
    ¬ Separates base a b → Slots base true b z slots → Slots base filled a z slots

namespace Slots

theorem opened_eq (h : Slots base filled a z ss) : z.opened = base := by
  induction h with
  | done same => exact same
  | comma _ _ _ ih | token _ _ _ _ ih => exact ih

theorem reaches (h : Slots base filled a z ss) : Relation.ReflTransGen Scan.Step a z := by
  induction h with
  | done => exact .refl
  | comma step _ _ ih | token step _ _ _ ih => exact .head step ih

/-- Behind a comma other slots follow. -/
theorem append (h : Slots base filled a z ss) (step : z.Step b) (separates : Separates base z b)
    (k : Slots base false b y ts) : Slots base filled a y (ss ++ ts) := by
  induction h with
  | done => exact .comma step separates k
  | comma step' separates' _ ih => exact .comma step' separates' (ih step separates)
  | token step' suffix other _ ih => exact .token step' suffix other (ih step separates)

/-- The slots of a bracket are tokens of the slot that the bracket stands in. -/
theorem nested {o : Opened} (h : Slots (o :: base) filled a z ss) (k : Slots base true z y ts) :
    Slots base true a y ts := by
  have inside {a b : Scan} (suffix : o :: base <:+ a.opened) :
      base <:+ a.opened ∧ ¬ Separates base a b := by
    refine ⟨(List.suffix_cons o base).trans suffix, fun separates => ?_⟩
    have := suffix.length_le
    rw [separates.1, List.length_cons] at this
    omega
  induction h with
  | done => exact k
  | comma step separates _ ih =>
    obtain ⟨suffix, other⟩ := inside ⟨[], separates.1.symm⟩
    exact .token step suffix other (ih k)
  | token step suffix _ _ ih =>
    obtain ⟨suffix, other⟩ := inside suffix
    exact .token step suffix other (ih k)

/-- Blanks and comments in front of slots do not change them. -/
theorem behind_skipped {opened : List Opened} {prev : Previous} {c d stop : Cursor}
    (h : Slots base filled ⟨opened, prev, d⟩ z ss) (skips : ∀ e, d.Skips e → c.Skips e)
    (ends : z.place.Skips stop) :
    ∃ z', Slots base filled ⟨opened, prev, c⟩ z' ss ∧ z'.place.Skips stop := by
  have moved {b : Scan} (step : Scan.Step ⟨opened, prev, d⟩ b) :
      Scan.Step ⟨opened, prev, c⟩ b := by
    obtain ⟨e, lead, skipsE, isLead, behind⟩ := step
    exact ⟨e, lead, skips e skipsE, isLead, behind⟩
  generalize start : (⟨opened, prev, d⟩ : Scan) = a at h
  cases h with
  | done same =>
    subst start
    exact ⟨⟨opened, prev, c⟩, .done same, skips _ ends⟩
  | comma step separates rest =>
    subst start
    exact ⟨z, .comma (moved step) separates rest, ends⟩
  | token step suffix other rest =>
    subst start
    exact ⟨z, .token (moved step) suffix other rest, ends⟩

/-- How the slots are cut is determined by where they end, if nothing is to be read
there. -/
theorem unique (h : Slots base filled a z ss) (k : Slots base filled a y ts)
    (atEnd : ∀ b, ¬ z.Step b) (atEnd' : ∀ b, ¬ y.Step b) : z = y ∧ ss = ts := by
  induction h generalizing ts with
  | done =>
    cases k with
    | done => exact ⟨rfl, rfl⟩
    | comma step | token step => exact absurd step (atEnd _)
  | comma step separates _ ih =>
    cases k with
    | done => exact absurd step (atEnd' _)
    | comma step' _ rest =>
      obtain rfl := step.unique step'
      obtain ⟨same, rfl⟩ := ih rest atEnd
      exact ⟨same, rfl⟩
    | token step' _ other =>
      obtain rfl := step.unique step'
      exact absurd separates other
  | token step _ other _ ih =>
    cases k with
    | done => exact absurd step (atEnd' _)
    | comma step' separates =>
      obtain rfl := step.unique step'
      exact absurd separates other
    | token step' _ _ rest =>
      obtain rfl := step.unique step'
      exact ih rest atEnd

end Slots

/-- Where steps lead from one state to another, what is read behind them is read in
front of them. -/
theorem reads_of_steps (h : Relation.ReflTransGen Scan.Step a z) {f : Found} {k : Cursor}
    (reads : Reads false (.code true z.opened z.prev) z.place f k) :
    ∃ g, Reads false (.code true a.opened a.prev) a.place g k := by
  induction h using Relation.ReflTransGen.head_induction_on with
  | refl => exact ⟨f, reads⟩
  | @head a b step _ ih =>
    obtain ⟨g, reads⟩ := ih
    obtain ⟨opened, prev, c⟩ := a
    obtain ⟨d, lead, skips, isLead, behind⟩ := step
    generalize state : (⟨opened, prev, c⟩ : Scan).opened = brackets at behind
    cases behind with
    | template inner => exact ⟨_, .codeTemplate skips isLead inner reads⟩
    | opener => exact ⟨_, .codeOpen skips isLead reads⟩
    | closer => exact ⟨_, .codeShut skips isLead reads⟩
    | element inner => exact ⟨_, .codeElement skips isLead inner reads⟩
    | token => exact ⟨_, .codeToken skips isLead (fun h => by cases h) reads⟩

end Document.Scan

/-! ## Texts -/

/-- Wherever the text stands, it begins with tokens that take up `opening`, the last of
which opens a bracket, and its last code point closes this bracket. What is between is
cut into slots. -/
def Text.Encloses (text opening : Text) (slots : List Bool) : Prop :=
  ∀ (c : Cursor) (w : Text), c.rest = text ++ w → ∀ (opened : List Opened) (prev : Previous),
    ∃ (b : Bracket) (z : Scan),
      Relation.ReflTransGen Scan.Step ⟨opened, prev, c⟩
        ⟨⟨b, false⟩ :: opened, .mark b.opener.toString, c.advance opening.length⟩ ∧
      Scan.Slots (⟨b, false⟩ :: opened) false
        ⟨⟨b, false⟩ :: opened, .mark b.opener.toString, c.advance opening.length⟩ z slots ∧
      z.Step ⟨opened, .mark b.closer.toString, c.advance text.length⟩

/-- The text is code on its own: in braces it is read up to the closing one, as far as
nothing behind a stray slash matters, and is cut into slots. -/
def Text.IsCode (text : Text) (slots : List Bool) : Prop :=
  ∃ f z, Reads true .block (.ofSource (text ++ "\x7d")) f ⟨text.length, "\x7d"⟩ ∧
    Scan.Slots [] false ⟨[], .start, .ofSource (text ++ "\x7d")⟩ z slots ∧
    z.place.Skips ⟨text.length, "\x7d"⟩

/-- In front of a closing brace there is no step without an open bracket. -/
theorem Document.Scan.not_step_of_skips {z b : Scan} {d : Cursor} {t : Text}
    (noneOpen : z.opened = []) (skips : z.place.Skips d) (hr : d.rest = .scalar '}' :: t) :
    ¬ z.Step b := by
  obtain ⟨opened, prev, c⟩ := z
  rintro ⟨e, lead, skipsE, isLead, behind⟩
  obtain rfl := skips.unique skipsE
  have closes := isLead.unique (Lead.at_closer (b := .curly) hr)
  obtain rfl : opened = [] := noneOpen
  cases behind <;> cases closes

/-- The slots of code on its own are determined by its text. -/
theorem Text.IsCode.unique {text : Text} {ss ts : List Bool} (h : text.IsCode ss)
    (k : text.IsCode ts) : ss = ts := by
  obtain ⟨_, z, _, slots, ends⟩ := h
  obtain ⟨_, y, _, slots', ends'⟩ := k
  exact (slots.unique slots' (fun _ => Scan.not_step_of_skips slots.opened_eq ends rfl)
    fun _ => Scan.not_step_of_skips slots'.opened_eq ends' rfl).2

/-- What encloses its slots can be read in braces. -/
theorem Text.Encloses.accepts {text opening : Text} {slots : List Bool}
    (h : text.Encloses opening slots) :
    ∃ f, Reads false .block (.ofSource (text ++ "\x7d")) f ⟨text.length, "\x7d"⟩ := by
  obtain ⟨b, z, opens, run, closes⟩ := h (.ofSource (text ++ "\x7d")) "\x7d" rfl [] .start
  have stop : (Cursor.ofSource (text ++ "\x7d")).advance text.length = ⟨text.length, "\x7d"⟩ := by
    simp [Cursor.ofSource, Cursor.advance]
  rw [stop] at closes
  have atBrace : (⟨text.length, "\x7d"⟩ : Cursor).Skips ⟨text.length, "\x7d"⟩ :=
    skips_self_iff.2 ⟨rfl, rfl⟩
  exact Scan.reads_of_steps ((opens.trans run.reaches).tail closes)
    (.codeClose atBrace (Lead.at_closer (b := .curly) rfl))

end StyleBinding
