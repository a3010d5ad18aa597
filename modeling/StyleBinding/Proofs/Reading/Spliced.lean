import StyleBinding.Proofs.Reading.Declarations
import StyleBinding.Proofs.Reading.Relocated
import StyleBinding.Proofs.Reading.Slots
import StyleBinding.Proofs.Reading.Soundness

/-!
# Code between other tokens

Code that is read on its own can be put between other tokens: with any brackets around
it, behind a token that an expression may follow and in front of a mark that no token
goes on with, its slots are what they were (`Text.IsCode.fits`). From such texts
longer ones are made with commas between them (`Text.Fits.join`) and with tokens around
them that open and close a bracket (`Text.Opens.encloses`).
-/

namespace StyleBinding

open Cursor Document Lexeme Relocation

/-- Whether a text is one word, and not the keyword of declarations. -/
def Text.isWord (t : Text) : Bool :=
  t.all (·.isName) && t.head?.any (fun x => !(x.isDecimal || x.isDigit)) && t != "import"

/-! ## Slots in another place -/

namespace Document

variable {m : Relocation} {strict filled : Bool} {base opened : List Opened}
  {prev prev₂ : Previous} {a b z : Scan} {c k : Cursor} {g : Found} {ss : List Bool}

theorem Reads.template_loose {d : Cursor} {f : Found} (h : Reads strict .template c f d) :
    Reads false .template c f d := by
  obtain ⟨_, ok⟩ := h.accepts 0
  exact .of_readTemplate ok

theorem Reads.element_loose {d : Cursor} {f : Found} (h : Reads strict .element c f d) :
    ∃ f, Reads false .element c f d := by
  obtain ⟨_, ok⟩ := h.accepts
  exact ⟨_, .of_readElement ok⟩

/-- The first token of code stands where the code goes, with more brackets around it. -/
theorem Reads.step_relocates (h : Reads strict (.code true opened prev) c g k)
    (step : Scan.Step ⟨opened, prev, c⟩ b) (covers : m.Covers c) (stops : k.Upto m.stop)
    (alike : m.Alike k) (stray : strict = true ∨ m.KeepsStray) (like : prev.Like prev₂) :
    m.Covers b.place ∧ (∃ g, Reads strict (.code true b.opened b.prev) b.place g k) ∧
      Scan.Step ⟨opened ++ base, prev₂, m.place c⟩
        ⟨b.opened ++ base, b.prev, m.place b.place⟩ := by
  cases h with
  | codeClose skips lead =>
    obtain ⟨t, hr⟩ := lead.of_closer
    exact absurd step (Scan.not_step_of_skips rfl skips hr)
  | codeTemplate skips lead inner rest =>
    have stopsE := rest.upto.trans stops
    obtain rfl := step.unique ⟨_, _, skips, lead, .template inner.template_loose⟩
    cases lead.begins with
    | template hr =>
      obtain ⟨skips', ⟨s, hs⟩, covers', advanced⟩ :=
        relocates_mark covers skips hr (by decide) (inner.upto.trans stopsE)
      have inner' := (inner.relocates rfl stray covers' stopsE trivial).template_loose
      rw [advanced] at inner'
      exact ⟨covers'.of_upto inner.upto stopsE, ⟨_, rest⟩, _, _, skips', Lead.at_template hs,
        .template inner'⟩
  | @codeOpen _ _ _ _ _ _ bracket _ skips lead rest =>
    obtain rfl := step.unique ⟨_, _, skips, lead, .opener⟩
    cases lead.begins with
    | opener hr =>
      obtain ⟨skips', ⟨s, hs⟩, covers', advanced⟩ :=
        relocates_mark covers skips hr (by cases bracket <;> decide) (rest.upto.trans stops)
      refine ⟨covers', ⟨_, rest⟩, _, _, skips', Lead.at_opener hs, ?_⟩
      rw [advanced, like.head]
      exact .opener
  | @codeShut _ _ o _ _ _ _ _ skips lead rest =>
    obtain rfl := step.unique ⟨_, _, skips, lead, .closer⟩
    obtain ⟨t, hr⟩ := lead.of_closer
    obtain ⟨skips', ⟨s, hs⟩, covers', advanced⟩ :=
      relocates_mark covers skips hr (by cases o.bracket <;> decide)
        (rest.upto.trans stops)
    refine ⟨covers', ⟨_, rest⟩, _, _, skips', Lead.at_closer hs, ?_⟩
    rw [advanced]
    exact .closer
  | codeElement skips lead inner rest =>
    have stopsE := rest.upto.trans stops
    obtain ⟨_, loose⟩ := inner.element_loose
    obtain rfl := step.unique ⟨_, _, skips, lead, .element loose⟩
    obtain ⟨skips', lead', coversD⟩ :=
      relocates_element covers skips lead (inner.element_two.trans stopsE) like
    obtain ⟨_, inner'⟩ := (inner.relocates rfl stray coversD stopsE trivial).element_loose
    exact ⟨coversD.of_upto inner.upto stopsE, ⟨_, rest⟩, _, _, skips', lead', .element inner'⟩
  | codeDeclaration skips lead => cases lead.of_declaration.1
  | @codeToken _ _ _ _ _ d _ stop _ skips lead plain rest =>
    have stopsE := rest.upto.trans stops
    have coversD := covers.of_upto skips.upto (stop.2.upto.trans stopsE)
    have alikeE := (coversD.of_upto stop.2.upto stopsE).alike rest.upto stops alike
    obtain rfl := step.unique ⟨_, _, skips, lead, .token⟩
    obtain ⟨past, skips', lead', coversE⟩ :=
      relocates_token covers skips lead stopsE alikeE (fun isStray => stray.elim
        (fun isStrict => absurd isStray (plain isStrict)) fun keeps => keeps _ _ coversD isStray)
        like fun _ _ _ announces => absurd announces.2.1 Bool.false_ne_true
    exact ⟨coversE, ⟨_, rest⟩, _, _, skips', lead', .token⟩

/-- The slots of code are what they were where the code goes. -/
theorem Reads.slots_relocate (h : Reads strict (.code true opened prev) c g k)
    (slots : Scan.Slots [] filled ⟨opened, prev, c⟩ z ss) (ends : z.place.Skips k)
    (covers : m.Covers c) (stops : k.Upto m.stop) (alike : m.Alike k)
    (stray : strict = true ∨ m.KeepsStray) (like : prev.Like prev₂) (base : List Opened) :
    ∃ z', Scan.Slots base filled ⟨opened ++ base, prev₂, m.place c⟩ z' ss ∧
      z'.place.Skips (m.place k) := by
  generalize start : (⟨opened, prev, c⟩ : Scan) = a at slots
  -- The run is followed token by token; what is read behind a step is read on.
  induction slots generalizing opened prev prev₂ c g with
  | done same =>
    subst start
    obtain rfl : opened = [] := same
    obtain ⟨t, hr⟩ := h.endsAt
    have nonempty : k.rest ≠ [] := by
      rw [hr]
      exact List.cons_ne_nil _ _
    exact ⟨_, .done rfl, covers.skips_of_alike ends stops nonempty alike⟩
  | @comma _ _ b _ _ step separates _ ih =>
    subst start
    obtain ⟨covers', ⟨_, reads⟩, step'⟩ := h.step_relocates step covers stops alike stray like
    obtain rfl : opened = [] := separates.1
    obtain ⟨z', slots', ends'⟩ := ih reads ends covers' (.refl b.prev) rfl
    exact ⟨z', .comma step' ⟨rfl, separates.2⟩ slots', ends'⟩
  | @token _ _ b _ _ step _ other _ ih =>
    subst start
    obtain ⟨covers', ⟨_, reads⟩, step'⟩ := h.step_relocates step covers stops alike stray like
    obtain ⟨z', slots', ends'⟩ := ih reads ends covers' (.refl b.prev) rfl
    refine ⟨z', .token step' (List.suffix_append ..) (fun separates => other ?_) slots', ends'⟩
    exact ⟨List.append_left_eq_self.1 separates.1, separates.2⟩

/-! ## Runs that stay in a slot -/

namespace Scan

/-- A token of a slot. -/
def Within (base : List Opened) (a b : Scan) : Prop :=
  a.Step b ∧ base <:+ a.opened ∧ ¬ Separates base a b

/-- Tokens of a slot in front of what follows in it. -/
theorem Slots.of_within (h : Relation.TransGen (Within base) a b) (k : Slots base true b z ss) :
    Slots base filled a z ss := by
  induction h using Relation.TransGen.head_induction_on generalizing filled with
  | single within => exact .token within.1 within.2.1 within.2.2 k
  | head within _ ih => exact .token within.1 within.2.1 within.2.2 ih

theorem reaches_of_within (h : Relation.TransGen (Within base) a b) :
    Relation.ReflTransGen Scan.Step a b := by
  have isStep : Within base ≤ Scan.Step := fun _ _ within => within.1
  exact Relation.ReflTransGen.mono isStep _ _ h.to_reflTransGen

theorem mark_ne_comma (b : Bracket) :
    Previous.mark b.opener.toString ≠ .mark "," ∧ Previous.mark b.closer.toString ≠ .mark "," := by
  cases b <;> decide

/-- The mark that opens a bracket. -/
theorem within_opener {b : Bracket} {t : Text} (hr : c.rest = .scalar b.opener :: t)
    (noHead : (b = .round && prev.opensHead) = false) :
    Within opened ⟨opened, prev, c⟩
      ⟨⟨b, false⟩ :: opened, .mark b.opener.toString, c.advance 1⟩ := by
  have skips : c.Skips c := skips_of_startsToken hr (by cases b <;> decide)
  refine ⟨⟨_, _, skips, Lead.at_opener hr, ?_⟩, List.suffix_rfl,
    fun separates => (mark_ne_comma b).1 separates.2⟩
  rw [← noHead]
  exact .opener

/-- An ordinary token that is no comma. -/
theorem within_token {prev' : Previous} {n : Nat} {x : CodePoint} {t : Text}
    (hr : c.rest = x :: t) (starts : startsToken x = true)
    (lexed : Lead.Lexed false prev c n prev') (other : prev' ≠ .mark ",") :
    Within opened ⟨opened, prev, c⟩ ⟨opened, prev', c.advance n⟩ := by
  obtain ⟨past, lead⟩ := lexed.at_token
  exact ⟨⟨_, _, skips_of_startsToken hr starts, lead, .token⟩, List.suffix_rfl,
    fun separates => other separates.2⟩

end Scan

/-- A word in front of a code point that is none of a name. -/
theorem lexed_word {name w : Text} (hr : c.rest = name ++ w) (isWord : name.isWord = true)
    (stops : w.head?.any (·.isName) = false) :
    Lead.Lexed false prev c name.length (.name name) ∧
      ∃ x t, c.rest = x :: t ∧ startsToken x = true := by
  simp only [Text.isWord, Bool.and_eq_true, bne_iff_ne] at isWord
  obtain ⟨⟨isName, first⟩, noKeyword⟩ := isWord
  have noDecimal : name.head?.any (!·.isDecimal) = true := by
    obtain ⟨x, v, rfl, noDigit⟩ := ImportClause.head?_any first
    simp_all
  have length := ImportClause.nameLength_append (v := w) isName noDecimal
  rw [(Text.countWhile_eq_zero_iff w).2 stops, Nat.add_zero] at length
  obtain ⟨x, v, rfl, noDigit⟩ := ImportClause.head?_any first
  rw [List.all_cons, Bool.and_eq_true] at isName
  have noNumber : Lead.startsNumber (x :: v ++ w) = false := by
    have noPoint : x.is '.' = false := by
      rw [Bool.eq_false_iff]
      intro same
      rw [CodePoint.is_iff.1 same] at isName
      cases isName.1
    rw [Bool.not_eq_true', Bool.or_eq_false_iff] at noDigit
    rw [List.cons_append, Lead.startsNumber, noDigit.2, noPoint]
    rfl
  have lexed : Lead.Lexed false prev c (x :: v).length (.name (c.rest.take (x :: v).length)) := by
    refine .word (hr ▸ noNumber) (hr ▸ length.symm) (Nat.succ_pos _) fun announces => ?_
    rw [hr, List.take_left] at announces
    exact absurd announces.1 noKeyword
  rw [hr, List.take_left] at lexed
  exact ⟨lexed, x, v ++ w, hr, startsToken_of_isName isName.1⟩

/-- The comma between two slots. -/
theorem Scan.step_comma {t : Text} (hr : c.rest = .scalar ',' :: t) :
    Scan.Step ⟨opened, prev, c⟩ ⟨opened, .mark ",", c.advance 1⟩ := by
  have lexed : Lead.Lexed false prev c 1 (prev.punctuator ",") :=
    .punctuator hr (hr ▸ rfl) (hr ▸ rfl) rfl (fun _ => hr ▸ Lead.regexLength?_of_ne rfl)
      (p := ",") (hr ▸ rfl)
  obtain ⟨past, lead⟩ := lexed.at_token
  exact ⟨_, _, skips_of_startsToken hr (by decide), lead, .token⟩

end Document

theorem Cursor.skips_of_isHard {c : Cursor} {x : CodePoint} {w : Text} (hr : c.rest = x :: w)
    (isHard : x.isHard = true) : c.Skips c := by
  refine skips_of_startsToken hr ?_
  rw [← Bool.not_eq_false']
  exact CodePoint.of_isHard (p := fun x => !startsToken x) isHard (by decide)

/-! ## Texts in every place -/

namespace Text

/-- The text can stand between other tokens, with any brackets around it, and is cut
into slots there: behind a token that an expression may follow, and in front of a mark
that no token goes on with. -/
def Fits (text : Text) (slots : List Bool) : Prop :=
  ∀ (base : List Opened) (prev : Previous) (c : Cursor) (x : CodePoint) (w : Text),
    prev.Like .start → c.rest = text ++ x :: w → x.isHard = true →
    ∃ z, Scan.Slots base false ⟨base, prev, c⟩ z slots ∧ z.place.Skips (c.advance text.length)

/-- The text begins with tokens, the last of which opens a bracket, wherever it stands. -/
def Opens (opening : Text) (b : Bracket) : Prop :=
  ∀ (opened : List Opened) (prev : Previous) (c : Cursor) (w : Text), c.rest = opening ++ w →
    Relation.TransGen (Scan.Within opened) ⟨opened, prev, c⟩
      ⟨⟨b, false⟩ :: opened, .mark b.opener.toString, c.advance opening.length⟩

variable {text opening name t u : Text} {b : Bracket} {ss ts : List Bool}

/-- Code that is read on its own can stand anywhere. -/
theorem IsCode.fits (h : text.IsCode ss) : text.Fits ss := by
  obtain ⟨f, z, reads, slots, ends⟩ := h
  intro base prev c x w like hr isHard
  let m : Relocation := ⟨0, ⟨text.length, "\x7d"⟩, c.offset, x :: w⟩
  have start : m.place (.ofSource (text ++ "\x7d")) = c := by
    simp only [Relocation.place, Relocation.offset, ofSource, m, Nat.sub_zero, Nat.zero_add,
      List.take_left]
    rw [← hr]
  have stop : m.place ⟨text.length, "\x7d"⟩ = c.advance text.length := by
    simp only [Relocation.place, Relocation.offset, m, Nat.sub_zero, Nat.sub_self, List.take_zero,
      List.nil_append, advance, hr, List.drop_left, Nat.add_comm]
  have covers : m.Covers (.ofSource (text ++ "\x7d")) := ⟨Nat.zero_le _, reads.upto⟩
  have alike : m.Alike ⟨text.length, "\x7d"⟩ := by
    rw [Relocation.Alike, stop, advance, hr, List.drop_left]
    exact .hard (by decide) isHard
  obtain ⟨z', slots', ends'⟩ :=
    reads.slots_relocate slots ends covers (.refl _) alike (.inl rfl) like.symm base
  rw [start] at slots'
  rw [stop] at ends'
  exact ⟨z', slots', ends'⟩

/-- Nothing at all is one slot. -/
theorem Fits.nil : Fits [] [false] := fun base prev c _ _ _ hr isHard =>
  ⟨⟨base, prev, c⟩, .done rfl, c.advance_zero ▸ skips_of_isHard hr isHard⟩

/-- Texts with a comma between them have the slots of both. -/
theorem Fits.append (h : t.Fits ss) (k : u.Fits ts) : (t ++ ", " ++ u).Fits (ss ++ ts) := by
  intro base prev c x w like hr isHard
  have hr : c.rest = t ++ .scalar ',' :: .scalar ' ' :: (u ++ x :: w) := by
    rw [hr, List.append_assoc, List.append_assoc]
    rfl
  obtain ⟨z, slots, ends⟩ := h base prev c _ _ like hr (by decide)
  have atComma : (c.advance t.length).rest = .scalar ',' :: .scalar ' ' :: (u ++ x :: w) := by
    rw [advance, hr, List.drop_left]
  have atBlank : ((c.advance t.length).advance 1).rest = .scalar ' ' :: (u ++ x :: w) := by
    rw [advance, atComma]
    rfl
  have behind : (((c.advance t.length).advance 1).advance 1).rest = u ++ x :: w := by
    rw [advance, atBlank]
    rfl
  obtain ⟨y, slots', ends'⟩ := k base (.mark ",") _ x w ⟨rfl, rfl, by decide⟩ behind isHard
  obtain ⟨y, slots', ends'⟩ := slots'.behind_skipped
    (fun e skips => Skips.blank atBlank (by decide) skips) ends'
  refine ⟨y, slots.append (b := ⟨base, .mark ",", (c.advance t.length).advance 1⟩) ?_
    ⟨slots.opened_eq, rfl⟩ slots', ?_⟩
  · obtain ⟨opened, prev', d⟩ := z
    obtain rfl : opened = base := slots.opened_eq
    have comma : Scan.Step ⟨opened, prev', c.advance t.length⟩ _ := Scan.step_comma atComma
    obtain ⟨e, lead, skips, isLead, behind⟩ := comma
    obtain rfl := (skips_of_isHard atComma (by decide)).unique skips
    exact ⟨_, lead, ends, isLead, behind⟩
  · rw [advance_advance, advance_advance, advance_advance] at ends'
    have length : (t ++ ", " ++ u).length = t.length + (1 + (1 + u.length)) := by
      rw [List.length_append, List.length_append, Nat.add_assoc, ← Nat.add_assoc 1]
      rfl
    rwa [length]

/-- Texts with commas between them have the slots of all. -/
theorem Fits.join {texts : List Text} {slots : List (List Bool)}
    (h : List.Forall₂ Fits texts slots) (nonempty : texts ≠ []) :
    (Text.join ", " texts).Fits slots.flatten := by
  induction h with
  | nil => exact absurd rfl nonempty
  | @cons t ss texts slots first rest ih =>
    cases rest with
    | nil =>
      rw [Text.join, List.intercalate_singleton, List.flatten_cons, List.flatten_nil,
        List.append_nil]
      exact first
    | cons =>
      rw [Text.join, List.intercalate_cons_cons, List.flatten_cons, ← Text.join]
      exact first.append (ih (List.cons_ne_nil _ _))

/-! ### Brackets -/

/-- Between the tokens that open a bracket and the mark that closes it, a text keeps its
slots. -/
theorem Opens.run (fits : t.Fits ss) {c : Cursor} {w : Text} (opening : Text)
    (hr : c.rest = opening ++ t ++ [CodePoint.scalar b.closer] ++ w) (opened : List Opened) :
    ∃ z, Scan.Slots (⟨b, false⟩ :: opened) false
        ⟨⟨b, false⟩ :: opened, .mark b.opener.toString, c.advance opening.length⟩ z ss ∧
      z.Step ⟨opened, .mark b.closer.toString,
        c.advance (opening ++ t ++ [CodePoint.scalar b.closer]).length⟩ := by
  have inside : (c.advance opening.length).rest = t ++ .scalar b.closer :: w := by
    rw [advance, hr, List.append_assoc, List.append_assoc, List.drop_left]
    rfl
  have atEnd : ((c.advance opening.length).advance t.length).rest = .scalar b.closer :: w := by
    rw [advance, inside, List.drop_left]
  obtain ⟨z, slots, ends⟩ := fits (⟨b, false⟩ :: opened) (.mark b.opener.toString) _ _ w
    (by cases b <;> exact ⟨rfl, rfl, by decide⟩) inside (by cases b <;> decide)
  refine ⟨z, slots, ?_⟩
  obtain ⟨brackets, prev, d⟩ := z
  obtain rfl : brackets = ⟨b, false⟩ :: opened := slots.opened_eq
  have step : Scan.Step ⟨⟨b, false⟩ :: opened, prev, d⟩
      ⟨opened, .mark b.closer.toString, ((c.advance opening.length).advance t.length).advance 1⟩ :=
    ⟨_, _, ends, Lead.at_closer atEnd, .closer (o := ⟨b, false⟩)⟩
  have length : (opening ++ t ++ [CodePoint.scalar b.closer]).length =
      opening.length + (t.length + 1) := by
    rw [List.length_append, List.length_append, Nat.add_assoc]
    rfl
  rwa [advance_advance, advance_advance, ← length] at step

/-- Tokens that open a bracket, a text and the mark that closes the bracket enclose the
slots of the text. -/
theorem Opens.encloses (opens : opening.Opens b) (fits : t.Fits ss) :
    (opening ++ t ++ [CodePoint.scalar b.closer]).Encloses opening ss := by
  intro c w hr opened prev
  obtain ⟨z, slots, step⟩ := Opens.run fits opening hr opened
  rw [List.append_assoc, List.append_assoc] at hr
  exact ⟨b, z, Scan.reaches_of_within (opens opened prev c _ hr), slots, step⟩

/-- What stands in a bracket is one slot to the outside. -/
theorem Opens.fits (opens : opening.Opens b) (fits : t.Fits ss) :
    (opening ++ t ++ [CodePoint.scalar b.closer]).Fits [true] := by
  intro base prev c x w _ hr isHard
  obtain ⟨z, slots, step⟩ := Opens.run fits opening (w := x :: w) hr base
  have atEnd : (c.advance (opening ++ t ++ [CodePoint.scalar b.closer]).length).rest = x :: w := by
    rw [advance, hr, List.drop_left]
  rw [List.append_assoc, List.append_assoc] at hr
  refine ⟨_, .of_within (opens base prev c _ hr) (slots.nested (.token step ?_ ?_ (.done rfl))),
    skips_of_isHard atEnd isHard⟩
  · rw [slots.opened_eq]
    exact List.suffix_cons _ _
  · exact fun separates => (Scan.mark_ne_comma b).2 separates.2

/-- A bracket opens itself. -/
theorem Opens.bracket (b : Bracket) (noRound : b ≠ .round) :
    Opens [CodePoint.scalar b.opener] b := by
  intro opened prev c w hr
  exact .single (Scan.within_opener hr (by rw [decide_eq_false noRound, Bool.false_and]))

/-- A word that a bracket stands behind. -/
theorem Opens.word (isWord : name.isWord = true)
    (noHead : (Previous.name name).opensHead = false) :
    Opens (name ++ [CodePoint.scalar b.opener]) b := by
  intro opened prev c w hr
  rw [List.append_assoc] at hr
  have stops : (CodePoint.scalar b.opener).isName = false := by cases b <;> rfl
  obtain ⟨lexed, x, v, hx, starts⟩ := lexed_word hr isWord stops
  have atOpener : (c.advance name.length).rest = .scalar b.opener :: w := by
    rw [advance, hr, List.drop_left]
    rfl
  have opens : Scan.Within opened ⟨opened, .name name, c.advance name.length⟩ _ :=
    Scan.within_opener atOpener (by rw [noHead, Bool.and_false])
  rw [advance_advance] at opens
  rw [List.length_append]
  exact .head (Scan.within_token hx starts lexed fun h => by cases h) (.single opens)

theorem opens_assign : Opens "Object.assign(" .round := by
  intro opened prev c w hr
  have hr : c.rest = ("Object" : Text) ++ .scalar '.' :: (("assign(" : Text) ++ w) := hr
  obtain ⟨object, x, v, hx, starts⟩ :=
    @lexed_word prev c _ _ hr (by decide) rfl
  have atPoint : (c.advance 6).rest = .scalar '.' :: (("assign(" : Text) ++ w) := by
    rw [advance, hr]
    rfl
  have point : Lead.Lexed false (.name "Object") (c.advance 6) 1 (.mark ".") :=
    .punctuator (p := ".") atPoint (atPoint ▸ rfl) (atPoint ▸ rfl) rfl
      (fun _ => atPoint ▸ Lead.regexLength?_of_ne rfl) (atPoint ▸ rfl)
  have behind : ((c.advance 6).advance 1).rest = ("assign(" : Text) ++ w := by
    rw [advance, atPoint]
    rfl
  have call : Opens ("assign" ++ "(") .round :=
    Opens.word (b := .round) (by decide) (by decide)
  have opens := call opened (.mark ".") _ w behind
  have stop : ((c.advance 6).advance 1).advance (("assign" : Text) ++ ("(" : Text)).length =
      c.advance ("Object.assign(" : Text).length := by
    rw [advance_advance, advance_advance]
    rfl
  rw [stop] at opens
  exact .head (Scan.within_token hx starts object (by decide))
    (.head (Scan.within_token atPoint (by decide) point (by decide)) opens)

/-! ### Code on its own -/

/-- A literal that was written is one token. -/
theorem fits_encode (name : Text) : (Literal.encode name).Fits [true] := by
  intro base prev c x w _ hr isHard
  have atEnd : (c.advance (Literal.encode name).length).rest = x :: w := by
    rw [advance, hr, List.drop_left]
  have isString : stringLength? c.rest = some (Literal.encode name).length :=
    hr ▸ stringLength?_encode name (x :: w)
  obtain ⟨t, first⟩ : ∃ t, c.rest = .scalar '"' :: t := ⟨_, hr⟩
  exact ⟨_, .of_within (.single (Scan.within_token first (by decide) (.string isString)
    (by decide))) (.done rfl), skips_of_isHard atEnd isHard⟩

/-- A word is code on its own. -/
theorem isCode_of_isWord (isWord : name.isWord = true) : name.IsCode [true] := by
  obtain ⟨lexed, x, v, hx, starts⟩ :=
    @lexed_word .start (.ofSource (name ++ "\x7d")) name _ rfl isWord (by decide)
  obtain ⟨past, lead⟩ := lexed.at_token
  have skips := skips_of_startsToken hx starts
  have stop : (ofSource (name ++ "\x7d")).advance name.length = ⟨name.length, "\x7d"⟩ := by
    simp [ofSource, advance]
  have plain : ¬ Lead.IsStray .start (.ofSource (name ++ "\x7d")) := by
    rintro ⟨_, slash, _⟩
    rw [hx, List.head?_cons] at slash
    cases slash
    cases starts
  have within : Scan.Within [] ⟨[], .start, ofSource (name ++ "\x7d")⟩ _ :=
    Scan.within_token hx starts lexed fun h => by cases h
  have ends : (⟨name.length, "\x7d"⟩ : Cursor).Skips ⟨name.length, "\x7d"⟩ :=
    skips_of_isHard rfl (by decide)
  have rest : Reads true (.code true [] (.name name)) ⟨name.length, "\x7d"⟩ {}
      ⟨name.length, "\x7d"⟩ := .codeClose ends (Lead.at_closer (b := .curly) rfl)
  rw [← stop] at rest ends
  rw [IsCode, ← stop]
  exact ⟨_, _, .codeToken skips lead (fun _ => plain) rest,
    .of_within (.single within) (.done rfl), ends⟩

end Text

end StyleBinding
