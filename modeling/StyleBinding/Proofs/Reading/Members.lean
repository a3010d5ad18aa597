import StyleBinding.Proofs.Pass.Identifiers
import StyleBinding.Proofs.Reading.Agreement
import StyleBinding.Proofs.Source.Renaming

/-!
# Names of members

A name behind a full stop, or behind a question mark with one, names a member. Reading a
source is the same when such a name is replaced by another of the same length
(`Document.parse_renamed`), where what follows does not depend on which word stands there.
It does where one of the words is a keyword and the other is not: a slash behind `a.in` opens
a regular expression, and behind `a.ab` it divides (`Document.parse_member_in`).
-/

namespace StyleBinding

open Cursor Document Lexeme

/-! ## What follows a word -/

namespace Lead

/-- Whether what stands at the head of a text depends on whether an expression may start
there: an element, a regular expression, an increment or a decrement. -/
def asksExpression (t : Text) : Bool :=
  (t.head?.any (·.is '<') && startsElement (t.drop 1)) || (regexLength? t).isSome ||
    punctuator? t == some "++" || punctuator? t == some "--"

/-- Tokens behind which the same is read in front of a text. -/
structure AlikeBefore (p q : Previous) (t : Text) : Prop where
  expression : asksExpression t = true → p.allowsExpression = q.allowsExpression
  head : t.head?.any (·.is '(') = true → p.opensHead = q.opensHead

variable {p q : Previous} {topLevel : Bool} {c : Cursor} {x : CodePoint} {t : Text}

theorem AlikeBefore.read_eq (alike : AlikeBefore p q c.rest)
    (member : p = .mark "." ↔ q = .mark ".") (hr : c.rest = x :: t) :
    read topLevel p c hr = read topLevel q c hr := by
  cases asks : asksExpression c.rest with
  | true => exact read_congr (alike.expression asks) member hr
  | false =>
    simp only [asksExpression, Bool.or_eq_false_iff, hr, List.head?_cons, Option.any_some,
      List.drop_one, List.tail_cons, beq_eq_false_iff_ne] at asks
    obtain ⟨⟨⟨noElement, noRegex⟩, noIncrement⟩, noDecrement⟩ := asks
    rw [← hr] at noRegex noIncrement noDecrement
    have noRegex : regexLength? c.rest = none := by simpa using noRegex
    have plain : plain topLevel p c hr = plain topLevel q c hr := by
      refine plain_congr (fun text isPunctuator => ?_) member hr
      have noIncrement : text ≠ "++" := fun same => noIncrement (same ▸ isPunctuator)
      have noDecrement : text ≠ "--" := fun same => noDecrement (same ▸ isPunctuator)
      simp [Previous.punctuator, noIncrement, noDecrement]
    have noElement (r : Previous) :
        (x.is '<' && r.allowsExpression && startsElement t) = false := by
      rw [Bool.and_right_comm, noElement, Bool.false_and]
    -- Quotes and brackets are told without the token before.
    cases quote : isQuote x with
    | true => rw [read, read, if_pos quote, if_pos quote]
    | false =>
      cases mark : x.is '\x60' with
      | true =>
        rw [read, read]
        simp only [quote, mark, Bool.false_eq_true, if_false, if_true]
      | false =>
        cases opener : Bracket.ofOpener? x with
        | some b =>
          rw [read, read]
          simp only [opener]
        | none =>
          cases closer : Bracket.ofCloser? x with
          | some b =>
            rw [read, read]
            simp only [opener, closer]
          | none =>
            have isPlain : IsPlain x := ⟨quote, mark, opener, closer⟩
            rw [read_eq_plain isPlain (noElement p) fun _ => noRegex,
              read_eq_plain isPlain (noElement q) fun _ => noRegex, plain]

end Lead

namespace Document

/-- Code is read alike behind tokens that are alike in front of it. -/
theorem codeOutcome_congr {nested : Bool} {opened : List Opened} {p q : Previous} {c : Cursor}
    (member : p = .mark "." ↔ q = .mark ".")
    (alike : ∀ d, c.Skips d → Lead.AlikeBefore p q d.rest) :
    codeOutcome nested opened p c = codeOutcome nested opened q c := by
  rw [codeOutcome, codeOutcome, readCode, readCode]
  cases skips : c.skipTrivia with
  | error e => rfl
  | ok s =>
    obtain ⟨d, hd⟩ := s
    have alike := alike d ⟨hd, skips⟩
    dsimp only
    split
    · rfl
    · rename_i x t hr
      rw [alike.read_eq member hr]
      cases read : Lead.read (!nested && opened.isEmpty) q d hr with
      | error e => rfl
      | ok lead =>
        cases lead with
        | opener b =>
          have begins : Lead.At (!nested && opened.isEmpty) q d (.opener b) := ⟨x, t, hr, read⟩
          have head : (b = .round && p.opensHead : Bool) = (b = .round && q.opensHead : Bool) := by
            cases b with
            | round =>
              cases begins.begins with
              | opener hr => rw [alike.head (by rw [hr]; rfl)]
            | square | curly => rfl
          dsimp only
          rw [head]
        | template | closer | element | declaration | token => rfl

/-! ## A mark in front of a name -/

/-- A punctuator behind which a member is named. -/
def IsMemberMark (mark : String) : Prop := mark = "." ∨ mark = "?."

theorem punctuator?_point {t : Text} (plain : t.head?.any (·.followsPoint) = false) :
    punctuator? (.scalar '.' :: t) = some "." := by
  have noPoint : t.head?.any (·.is '.') = false := by
    cases t with
    | nil => rfl
    | cons x t =>
      simp only [List.head?_cons, Option.any_some, CodePoint.followsPoint,
        Bool.or_eq_false_iff] at plain ⊢
      exact plain.2
  have noEllipsis : Text.startsWith (.scalar '.' :: t) "..." = false := by
    cases t with
    | nil => rfl
    | cons x t =>
      rw [List.head?_cons, Option.any_some, CodePoint.is, beq_eq_false_iff_ne] at noPoint
      simp [Text.startsWith, Text.ofString, List.isPrefixOf, Ne.symm noPoint]
  rw [punctuator?, punctuators, List.find?_cons, List.find?_cons, noEllipsis]
  rfl

namespace IsMemberMark

variable {mark : String} {t u : Text}

theorem punctuator?_eq (h : IsMemberMark mark) (plain : t.head?.any (·.followsPoint) = false) :
    punctuator? (Text.ofString mark ++ t) = some mark := by
  rcases h with rfl | rfl
  · exact punctuator?_point plain
  · rfl

/-- A place in front of a mark begins alike whatever is behind the mark. -/
theorem alike (h : IsMemberMark mark) (plain : t.head?.any (·.followsPoint) = false)
    (plain' : u.head?.any (·.followsPoint) = false) :
    Text.Alike (Text.ofString mark ++ t) (Text.ofString mark ++ u) := by
  rcases h with rfl | rfl
  · exact .point plain plain'
  · exact .cons (.point plain plain')

theorem exists_cons (h : IsMemberMark mark) :
    ∃ x u, Text.ofString mark = .scalar x :: u ∧ (x = '.' ∨ x = '?') := by
  rcases h with rfl | rfl
  · exact ⟨_, _, rfl, .inl rfl⟩
  · exact ⟨_, _, rfl, .inr rfl⟩

/-- The mark is read where it stands. -/
theorem lead_at (h : IsMemberMark mark) {topLevel : Bool} {prev : Previous} {c : Cursor}
    (hr : c.rest = Text.ofString mark ++ t) (plain : t.head?.any (·.followsPoint) = false) :
    ∃ past, Lead.At topLevel prev c (.token ⟨c.advance mark.toList.length, past⟩ (.mark mark)) := by
  obtain ⟨x, u, hm, first⟩ := h.exists_cons
  have whole : c.rest = .scalar x :: (u ++ t) := by rw [hr, hm, List.cons_append]
  have isMark := h.punctuator?_eq plain
  have stays : prev.punctuator mark = .mark mark := by
    rcases h with rfl | rfl <;> simp [Previous.punctuator]
  rw [← hr] at isMark
  have noNumber : Lead.startsNumber c.rest = false := by
    rcases h with rfl | rfl
    · rw [hr]
      change (false || (true && t.head?.any (·.isDigit))) = false
      cases t with
      | nil => rfl
      | cons y t =>
        simp only [List.head?_cons, Option.any_some, CodePoint.followsPoint,
          Bool.or_eq_false_iff] at plain ⊢
        simp [plain.1]
    · rw [hr]
      rfl
  have noName : nameLength c.rest = 0 := by
    rw [whole]
    rcases first with rfl | rfl <;> rfl
  have lexed : Lead.Lexed topLevel prev c mark.toList.length (prev.punctuator mark) :=
    .punctuator whole noNumber noName (by rcases first with rfl | rfl <;> rfl)
      (fun _ => by
        rw [whole]
        exact Lead.regexLength?_of_ne (by rcases first with rfl | rfl <;> decide)) isMark
  rw [stays] at lexed
  exact lexed.at_token

/-- Code comes to be behind such a mark by reading it. -/
theorem of_leads (h : IsMemberMark mark) {a : Stage} {nested : Bool} {opened : List Opened}
    {c : Cursor} (step : Leads a ⟨.code nested opened (.mark mark), c⟩) :
    ∃ prev b d, ∃ stop : { e : Cursor // d.Past e }, a = ⟨.code nested opened prev, b⟩ ∧
      b.Skips d ∧ Lead.At (!nested && opened.isEmpty) prev d (.token stop (.mark mark)) ∧
      stop.1 = c := by
  have other {text : String} (eq : mark = text) (noMark : text ≠ "." ∧ text ≠ "?.") : False := by
    rcases h with rfl | rfl
    · exact noMark.1 eq.symm
    · exact noMark.2 eq.symm
  generalize whole : (⟨.code nested opened (.mark mark), c⟩ : Stage) = z at step
  cases step with
  | codeToken skips lead =>
    cases whole
    exact ⟨_, _, _, _, rfl, skips, lead, rfl⟩
  | @codeOpen _ _ _ _ _ b =>
    simp only [Stage.mk.injEq, Task.code.injEq, Previous.mark.injEq] at whole
    exact (other whole.1.2.2 (by cases b <;> decide)).elim
  | @codeShut _ _ o =>
    simp only [Stage.mk.injEq, Task.code.injEq] at whole
    have eq := whole.1.2.2
    split at eq
    · cases eq
    · exact (other (Previous.mark.inj eq) (by cases o.bracket <;> decide)).elim
  | behindDeclaration =>
    simp only [Stage.mk.injEq, Task.code.injEq, Previous.mark.injEq] at whole
    exact (other whole.1.2.2 (by decide)).elim
  | _ => cases whole

end IsMemberMark

/-! ## Marks and names -/

/-- An ASCII identifier is a name. -/
theorem isName_of_ascii {w : Text} (ascii : ∀ x ∈ w, x.isPlain = true ∨ x = .scalar '$')
    (starts : w.head?.any (!·.isIn Char.isDigit) = true) : w.IsName := by
  have names : ('$' :: '_' :: alphanumerics).all (fun x => (CodePoint.scalar x).isName &&
      (CodePoint.scalar x).isDigit == x.isDigit) = true := by
    decide +kernel
  have each (x : CodePoint) (member : x ∈ w) :
      x.isName = true ∧ x.isDigit = x.isIn Char.isDigit := by
    obtain ⟨y, inside, rfl⟩ : ∃ y ∈ '$' :: '_' :: alphanumerics, x = .scalar y := by
      rcases ascii x member with isPlain | rfl
      · obtain ⟨y, inside, rfl⟩ := CodePoint.exists_of_isPlain isPlain
        exact ⟨y, List.mem_cons_of_mem _ inside, rfl⟩
      · exact ⟨'$', List.mem_cons_self, rfl⟩
    have both := List.all_eq_true.1 names y inside
    rw [Bool.and_eq_true, beq_iff_eq] at both
    exact both
  obtain _ | ⟨x, s⟩ := w
  · cases starts
  rw [List.head?_cons, Option.any_some, Bool.not_eq_true',
    ← (each x List.mem_cons_self).2] at starts
  have noDecimal : x.isDecimal = false := by
    rw [CodePoint.isDigit, Bool.or_eq_false_iff] at starts
    exact starts.1
  refine ⟨List.cons_ne_nil _ _, starts, ?_⟩
  rw [nameLength_eq_ite, List.head?_cons, Option.any_some, noDecimal, if_neg Bool.false_ne_true,
    Text.countWhile_eq, List.takeWhile_eq_self_iff.2 fun y member => (each y member).1]

/-- What stands in front of the token of a mark is the mark. -/
theorem split_mark {topLevel : Bool} {prev : Previous} {c : Cursor} {mark : String}
    {stop : { e : Cursor // c.Past e }}
    (lead : Lead.At topLevel prev c (.token stop (.mark mark))) :
    stop.1 = c.advance mark.toList.length ∧ c.rest = Text.ofString mark ++ stop.1.rest := by
  have length : (Text.ofString mark).length = mark.toList.length := List.length_map _
  cases lead.begins with
  | @token n _ _ isStop lexed =>
    generalize eq : Previous.mark mark = prev' at lexed
    cases lexed with
    | string | regex | number | word | other => cases eq
    | @punctuator _ _ p _ _ _ _ _ isPunctuator =>
      obtain rfl : mark = p := by
        unfold Previous.punctuator at eq
        split at eq
        · cases eq
        · exact Previous.mark.inj eq
      have here : c.rest.startsWith mark = true :=
        List.find?_some (l := punctuators) isPunctuator
      obtain ⟨t, ht⟩ := List.isPrefixOf_iff_prefix.1 here
      refine ⟨isStop, ?_⟩
      rw [isStop, advance, ← ht, ← length, List.drop_left]

/-- What stands in front of the token of a name is the name. -/
theorem split_name {topLevel : Bool} {prev : Previous} {c : Cursor} {word : Text}
    {stop : { e : Cursor // c.Past e }}
    (lead : Lead.At topLevel prev c (.token stop (.name word))) :
    stop.1 = c.advance word.length ∧ c.rest = word ++ stop.1.rest ∧ word.IsName ∧
      stop.1.rest.head?.any (·.isName) = false := by
  cases lead.begins with
  | @token n _ _ isStop lexed =>
    generalize eq : Previous.name word = prev' at lexed
    cases lexed with
    | string | regex | number | other => cases eq
    | punctuator =>
      unfold Previous.punctuator at eq
      split at eq <;> cases eq
    | word noNumber isEnd pos =>
      subst isEnd
      obtain rfl := Previous.name.inj eq
      rw [isStop, List.length_take_of_le (nameLength_le _)]
      exact ⟨rfl, (List.take_append_drop _ _).symm, Text.IsName.of_nameLength noNumber pos⟩

/-- A name is read where it stands, in front of what belongs to none. -/
theorem lead_name {topLevel : Bool} {prev : Previous} {c d : Cursor} {word t : Text}
    (isName : word.IsName) (hr : c.rest = word ++ t) (ends : t.head?.any (·.isName) = false)
    (stop : c.advance word.length = d)
    (plain : Lead.Announces topLevel prev word → Lead.startsDeclaration d = .ok false) :
    ∃ past, Lead.At topLevel prev c (.token ⟨d, past⟩ (.name word)) := by
  subst stop
  have taken : c.rest.take word.length = word := by
    rw [hr]
    exact List.take_left
  have lexed : Lead.Lexed topLevel prev c word.length (.name (c.rest.take word.length)) := by
    refine .word ?_ ?_ (List.length_pos_iff.2 isName.nonempty) ?_
    · rw [hr]
      exact isName.startsNumber_append t
    · rw [hr]
      exact (isName.nameLength_append ends).symm
    · rwa [taken]
  rw [taken] at lexed
  exact lexed.at_token

/-- Neither a number nor an ellipsis goes on behind a mark where a name follows it. -/
theorem followsPoint_of_skips {c d : Cursor} {word t : Text} (skips : c.Skips d)
    (hr : d.rest = word ++ t) (isName : word.IsName) :
    c.rest.head?.any (·.followsPoint) = false := by
  obtain ⟨x, s, rfl, isNameX, noDigit, _⟩ := isName.exists_cons
  rcases skips.eq_or_head with rfl | noStart
  · rw [hr, List.cons_append, List.head?_cons, Option.any_some, CodePoint.followsPoint, noDigit,
      Bool.false_or, Bool.eq_false_iff]
    intro same
    rw [CodePoint.is_iff.1 same] at isNameX
    cases isNameX
  · by_contra follows
    cases hc : c.rest with
    | nil => simp [hc] at follows
    | cons y u =>
      rw [hc, List.head?_cons, Option.any_some] at noStart follows
      rw [Bool.not_eq_false, CodePoint.followsPoint, Bool.or_eq_true] at follows
      have starts : startsToken y = true := by
        rcases follows with isDigit | isPoint
        · refine startsToken_of_isName ?_
          simp [CodePoint.isName, CodePoint.isWord, CodePoint.isNumeral, isDigit]
        · rw [CodePoint.is_iff.1 isPoint]
          decide
      rw [starts] at noStart
      cases noStart

/-- A name that reading a source comes to in code, behind a mark that a member is named
behind. -/
structure MemberName (source : Text) where
  nested : Bool
  opened : List Opened
  mark : String
  isMark : IsMemberMark mark
  place : Cursor
  visited : Visits source ⟨.code nested opened (.mark mark), place⟩
  start : Cursor
  skips : place.Skips start
  word : Text
  stop : { e : Cursor // start.Past e }
  isName : Lead.At (!nested && opened.isEmpty) (.mark mark) start (.token stop (.name word))

namespace MemberName

variable {source w : Text} (n : MemberName source)

/-- The source with another name in place of a member's. -/
def renamed (w : Text) : Text :=
  source.take n.start.offset ++ w ++ source.drop n.stop.1.offset

/-- What follows the name of a member is read the same behind another word: it is no
punctuator that means something else where an expression may start, no parenthesis that
opens the head of a statement behind one of the words, and nothing to be declared behind
the keyword `import`. -/
structure ReadsAlike (w : Text) : Prop where
  alike : ∀ d, n.stop.1.Skips d → Lead.AlikeBefore (.name n.word) (.name w) d.rest
  plain : Lead.Announces (!n.nested && n.opened.isEmpty) (.mark n.mark) w →
    Lead.startsDeclaration n.stop.1 = .ok false

/-- Where the places of a source up to the name go. -/
def moves (w : Text) : Relocation := ⟨0, n.start, 0, w ++ n.stop.1.rest⟩

theorem rest_start : n.start.rest = n.word ++ n.stop.1.rest := (split_name n.isName).2.1

theorem covers {c : Cursor} (upto : c.Upto n.start) : (n.moves w).Covers c :=
  ⟨Nat.zero_le _, upto⟩

theorem place_start : (n.moves w).place n.start = ⟨n.start.offset, w ++ n.stop.1.rest⟩ := by
  simp only [Relocation.place, moves, Relocation.offset, Nat.sub_self, List.take_zero,
    List.nil_append, Nat.sub_zero, Nat.add_zero]

theorem codeStart_upto : (codeStart source).Upto n.start :=
  (upto_of_leads n.visited).trans n.skips.upto

theorem place_source : (n.moves w).place (ofSource source) = ofSource (n.renamed w) := by
  have on := (codeStart_on source).upto (n.codeStart_upto.trans n.stop.2.upto)
  have rest : n.stop.1.rest = source.drop n.stop.1.offset := congrArg Cursor.rest on
  simp only [Relocation.place, moves, Relocation.offset, ofSource, Nat.sub_zero, Nat.add_zero,
    renamed, rest, List.append_assoc]

/-- The name is read where it stands. -/
theorem lead_renamed (isName : w.IsName) (length : w.length = n.word.length)
    (alike : n.ReadsAlike w) :
    ∃ past, Lead.At (!n.nested && n.opened.isEmpty) (.mark n.mark) ((n.moves w).place n.start)
      (.token ⟨n.stop.1, past⟩ (.name w)) := by
  obtain ⟨isStop, whole, _, ends⟩ := split_name n.isName
  refine lead_name isName (by rw [place_start]) ends ?_ alike.plain
  rw [place_start, advance]
  dsimp only
  rw [List.drop_left, length]
  conv_rhs => rw [isStop, advance, whole, List.drop_left]

/-- The gap between the mark and the name stays a gap. -/
theorem skips_renamed (isName : w.IsName) :
    ((n.moves w).place n.place).Skips ((n.moves w).place n.start) := by
  obtain ⟨x, s, rfl, isNameX, _⟩ := isName.exists_cons
  obtain ⟨y, t, hy, _⟩ := (split_name n.isName).2.2.1.exists_cons
  refine (n.covers n.skips.upto).skips n.skips (.refl _) ?_ ?_
  · rw [n.rest_start, hy]
    exact List.cons_ne_nil _ _
  · refine skips_of_startsToken (x := x) (t := s ++ n.stop.1.rest) ?_
      (startsToken_of_isName isNameX)
    rw [place_start]
    rfl

section Mark

variable {n} {prev : Previous} {d : Cursor} {stop : { e : Cursor // d.Past e }}

theorem upto_start (isPlace : stop.1 = n.place) : d.Upto n.start :=
  stop.2.upto.trans (isPlace ▸ n.skips.upto)

/-- The mark stands in front of the gap. -/
theorem rest_mark
    (lead : Lead.At (!n.nested && n.opened.isEmpty) prev d (.token stop (.mark n.mark)))
    (isPlace : stop.1 = n.place) :
    (n.moves w).place n.place = ((n.moves w).place d).advance n.mark.toList.length ∧
      ((n.moves w).place d).rest = Text.ofString n.mark ++ ((n.moves w).place n.place).rest := by
  obtain ⟨isStop, whole⟩ := split_mark lead
  rw [isPlace] at isStop whole
  obtain ⟨u, rest, rest', same, same'⟩ :=
    (n.covers (w := w) (upto_start isPlace)).split (isPlace ▸ stop.2.upto) n.skips.upto
  have isMark : u = Text.ofString n.mark := List.append_cancel_right (rest.symm.trans whole)
  have length : u.length = n.mark.toList.length := by
    rw [isMark]
    exact List.length_map _
  rw [length] at same'
  exact ⟨same', isMark ▸ rest'⟩

/-- A slash in front of the mark opens a regular expression where it did. -/
theorem keepsStray (isName : w.IsName) (length : w.length = n.word.length)
    (isPlace : stop.1 = n.place) : ((n.moves w).before d).KeepsStray := by
  intro prev c covers isStray
  have upto : c.Upto d := covers.upto
  have coversC := n.covers (w := w) (upto.trans (upto_start isPlace))
  rw [coversC.place_before upto (upto_start isPlace)]
  obtain ⟨u, rest, rest', _⟩ := coversC.split coversC.upto (.refl _)
  change c.rest = u ++ n.start.rest at rest
  change ((n.moves w).place c).rest = u ++ ((n.moves w).place n.start).rest at rest'
  rw [n.rest_start] at rest
  rw [place_start] at rest'
  have names := Text.Renames.of_names (split_name n.isName).2.2.1.forall_isName
    isName.forall_isName length.symm
  have renames : Text.Renames c.rest ((n.moves w).place c).rest := by
    rw [rest, rest']
    exact List.rel_append (Text.Renames.refl u) (List.rel_append names (Text.Renames.refl _))
  exact renames.regexLength?_eq_none isStray.2.2

/-- The source stays as it is up to the mark. -/
theorem stays (isName : w.IsName) (length : w.length = n.word.length)
    (lead : Lead.At (!n.nested && n.opened.isEmpty) prev d (.token stop (.mark n.mark)))
    (isPlace : stop.1 = n.place) : ((n.moves w).before d).Stays := by
  have coversD := n.covers (w := w) (upto_start isPlace)
  have placeD := coversD.place_before (.refl d) (upto_start isPlace)
  have whole := (split_mark lead).2
  rw [isPlace] at whole
  have whole' := (rest_mark (w := w) lead isPlace).2
  obtain ⟨x, u, hm, isMark⟩ := n.isMark.exists_cons
  refine ⟨rfl, rfl, ?_, ?_, ?_, keepsStray isName length isPlace⟩
  · change Text.Alike d.rest (((n.moves w).before d).place d).rest
    rw [placeD, whole, whole']
    exact n.isMark.alike
      (followsPoint_of_skips n.skips n.rest_start (split_name n.isName).2.2.1)
      (followsPoint_of_skips (n.skips_renamed isName) (by rw [place_start]) isName)
  · change (((n.moves w).before d).place d).rest.head? = d.rest.head?
    rw [placeD, whole, whole', hm]
    rfl
  · change ∃ x t, d.rest = _ ∧ _
    rw [whole, hm]
    exact ⟨x, _, rfl, isMark⟩

/-- Code in front of the mark is read the same in front of the other name. -/
theorem agrees {b : Cursor} (isName : w.IsName) (length : w.length = n.word.length)
    (alike : n.ReadsAlike w) (skips : b.Skips d)
    (lead : Lead.At (!n.nested && n.opened.isEmpty) prev d (.token stop (.mark n.mark)))
    (isPlace : stop.1 = n.place) :
    ((n.moves w).before d).Agrees ⟨.code n.nested n.opened prev, b⟩ := by
  have stays := stays isName length lead isPlace
  have placeD := (n.covers (w := w) (upto_start isPlace)).place_before (.refl d)
    (upto_start isPlace)
  have skips' := stays.skips (stays.covers skips.upto) skips (.refl d)
  have markLead : ∃ past, Lead.At (!n.nested && n.opened.isEmpty) prev ((n.moves w).place d)
      (.token ⟨((n.moves w).place d).advance n.mark.toList.length, past⟩ (.mark n.mark)) :=
    n.isMark.lead_at (rest_mark lead isPlace).2
      (followsPoint_of_skips (n.skips_renamed isName) (by rw [place_start]) isName)
  obtain ⟨past, markLead⟩ := markLead
  obtain ⟨past', nameLead⟩ := n.lead_renamed isName length alike
  simp only [Relocation.Agrees]
  rw [placeD] at skips'
  calc codeOutcome n.nested n.opened prev (((n.moves w).before d).place b)
      = codeOutcome n.nested n.opened (.mark n.mark)
          (((n.moves w).place d).advance n.mark.toList.length) := codeOutcome_eq skips' markLead
    _ = codeOutcome n.nested n.opened (.mark n.mark) ((n.moves w).place n.place) := by
        rw [(rest_mark (w := w) lead isPlace).1]
    _ = codeOutcome n.nested n.opened (.name w) n.stop.1 :=
        codeOutcome_eq (n.skips_renamed isName) nameLead
    _ = codeOutcome n.nested n.opened (.name n.word) n.stop.1 :=
        (codeOutcome_congr (by simp) alike.alike).symm
    _ = codeOutcome n.nested n.opened (.mark n.mark) n.place :=
        (codeOutcome_eq n.skips n.isName).symm
    _ = codeOutcome n.nested n.opened (.mark n.mark) stop.1 := by rw [isPlace]
    _ = codeOutcome n.nested n.opened prev b := (codeOutcome_eq skips lead).symm

end Mark

end MemberName

/-- Putting another name in place of a member's does not change what is read, or why it is
not, where what follows is read alike behind both. -/
theorem parse_renamed {source w : Text} (n : MemberName source) (isName : w.IsName)
    (length : w.length = n.word.length) (alike : n.ReadsAlike w) :
    parse (n.renamed w) = (parse source).map fun d => { d with source := n.renamed w } := by
  rcases Relation.ReflTransGen.cases_tail n.visited with start | ⟨a, behind, step⟩
  · simp at start
  obtain ⟨prev, b, d, stop, rfl, skips, lead, isPlace⟩ := n.isMark.of_leads step
  have stays := MemberName.stays isName length lead isPlace
  have sees : ((n.moves w).before d).Sees ⟨.code n.nested n.opened prev, b⟩ := by
    obtain ⟨x, u, hm, isMark⟩ := n.isMark.exists_cons
    have whole := (split_mark lead).2
    rw [hm, List.cons_append] at whole
    refine ⟨d, skips, .refl d, fun word => absurd word (Relocation.not_atAttributeWord whole ?_)⟩
    rcases isMark with rfl | rfl <;> decide
  have agrees := agrees_of_reaches stays behind skips.upto sees
    (MemberName.agrees isName length alike skips lead isPlace)
  have reached : (codeStart source).Upto d := (upto_of_leads behind).trans skips.upto
  have source' : ((n.moves w).before d).place (ofSource source) = ofSource (n.renamed w) := by
    have upto := (codeStart_upto source).trans reached
    rw [(n.covers (upto.trans (MemberName.upto_start isPlace))).place_before upto
      (MemberName.upto_start isPlace), n.place_source]
  have start := stays.codeStart_eq reached
  rw [source'] at start
  simp only [Relocation.Agrees] at agrees
  rw [parse_eq, parse_eq]
  change codeStart (n.renamed w) = _ at start
  rw [start, agrees]
  cases codeOutcome false [] .start (codeStart source) <;> rfl

/-- A member in the attribute of an element. -/
def heldSource : Text := "<b c=\x7ba?.of\x7d/>"

theorem parse_renamed_held :
    ∃ n : MemberName heldSource, n.word = ("of" : Text) ∧
      n.renamed "ab" = "<b c=\x7ba?.ab\x7d/>" ∧
      parse "<b c=\x7ba?.ab\x7d/>" =
        (parse heldSource).map fun d => { d with source := "<b c=\x7ba?.ab\x7d/>" } := by
  let spot (n : Nat) : Cursor := Cursor.place heldSource n
  have visible (n : Nat) {x : CodePoint} {t : Text} (hr : (spot n).rest = x :: t)
      (starts : startsToken x = true) : (spot n).Skips (spot n) := skips_of_startsToken hr starts
  have first : ∃ past, Lead.At false .start (spot 6) (.token ⟨spot 7, past⟩ (.name "a")) :=
    lead_name (isName_of_ascii (by decide) (by decide)) rfl rfl rfl nofun
  have mark : ∃ past, Lead.At false (.name "a") (spot 7)
      (.token ⟨(spot 7).advance 2, past⟩ (.mark "?.")) :=
    IsMemberMark.lead_at (.inr rfl) (t := "of\x7d/>") rfl rfl
  have name : ∃ past, Lead.At false (.mark "?.") (spot 9) (.token ⟨spot 11, past⟩ (.name "of")) :=
    lead_name (isName_of_ascii (by decide) (by decide)) rfl rfl rfl nofun
  obtain ⟨past, first⟩ := first
  obtain ⟨past', mark⟩ := mark
  obtain ⟨past₂, name⟩ := name
  have toElement : Leads ⟨.code false [] .start, spot 0⟩ ⟨.element, spot 0⟩ :=
    .codeElement (visible 0 rfl rfl) (Lead.at_element rfl rfl rfl)
  have toTag := Leads.elementTag (c := spot 0) (d := spot 1) (n := 1) (List.cons_ne_nil _ _)
    (visible 1 rfl rfl) (by decide +kernel) Nat.one_pos
  have toBlock :
      Leads ⟨.tag ((spot 1).rest.take 1) (spot 0).offset (.point ((spot 1).offset + 1)), spot 2⟩
        ⟨.block, (spot 5).advance 1⟩ :=
    .tagContainer (d := spot 3) (q := spot 4) (v := spot 5) (n := 1)
      (.blank rfl rfl (visible 3 rfl rfl)) (by decide +kernel) Nat.one_pos (visible 4 rfl rfl) rfl
      (visible 5 rfl rfl) rfl
  have toName : Leads ⟨.block, spot 6⟩ ⟨.code true [] (.name "a"), spot 7⟩ :=
    .codeToken (visible 6 rfl rfl) first
  have toMark : Leads ⟨.code true [] (.name "a"), spot 7⟩ ⟨.code true [] (.mark "?."), spot 9⟩ :=
    .codeToken (visible 7 rfl rfl) mark
  have visited : Visits heldSource ⟨.code true [] (.mark "?."), spot 9⟩ :=
    ((((Relation.ReflTransGen.single toElement).tail toTag).tail toBlock).tail toName).tail toMark
  let n : MemberName heldSource :=
    ⟨true, [], "?.", .inr rfl, spot 9, visited, spot 9, visible 9 rfl rfl, "of",
      ⟨spot 11, past₂⟩, name⟩
  have renamed : n.renamed "ab" = "<b c=\x7ba?.ab\x7d/>" := rfl
  have alike : n.ReadsAlike "ab" := by
    refine ⟨fun d skips => ?_, nofun⟩
    obtain rfl := (visible 11 rfl rfl).unique skips
    exact ⟨nofun, nofun⟩
  refine ⟨n, rfl, renamed, ?_⟩
  rw [← renamed]
  exact parse_renamed n (isName_of_ascii (by decide) (by decide)) rfl alike

/-- A member with the name of a keyword, in front of a slash that divides. -/
def dividedSource : Text := "a.in / 2 + '/';"

/-- A slash behind a member with the name of a keyword is taken for the start of a regular
expression, so that the source is refused, and behind another name it is not. -/
theorem parse_member_in :
    ∃ n : MemberName dividedSource, n.word = ("in" : Text) ∧ Text.IsName "ab" ∧
      ("ab" : Text).length = n.word.length ∧ (parse dividedSource).toOption.isNone = true ∧
      (parse (n.renamed "ab")).toOption.isSome = true := by
  let spot (n : Nat) : Cursor := Cursor.place dividedSource n
  have visible (n : Nat) {x : CodePoint} {t : Text} (hr : (spot n).rest = x :: t)
      (starts : startsToken x = true) : (spot n).Skips (spot n) := skips_of_startsToken hr starts
  have first : ∃ past, Lead.At true .start (spot 0) (.token ⟨spot 1, past⟩ (.name "a")) :=
    lead_name (isName_of_ascii (by decide) (by decide)) rfl rfl rfl nofun
  have mark : ∃ past, Lead.At true (.name "a") (spot 1)
      (.token ⟨(spot 1).advance 1, past⟩ (.mark ".")) :=
    IsMemberMark.lead_at (.inl rfl) (t := "in / 2 + '/';") rfl rfl
  have name : ∃ past, Lead.At true (.mark ".") (spot 2) (.token ⟨spot 4, past⟩ (.name "in")) :=
    lead_name (isName_of_ascii (by decide) (by decide)) rfl rfl rfl nofun
  obtain ⟨past, first⟩ := first
  obtain ⟨past', mark⟩ := mark
  obtain ⟨past₂, name⟩ := name
  have toName : Leads ⟨.code false [] .start, spot 0⟩ ⟨.code false [] (.name "a"), spot 1⟩ :=
    .codeToken (visible 0 rfl rfl) first
  have toMark : Leads ⟨.code false [] (.name "a"), spot 1⟩ ⟨.code false [] (.mark "."), spot 2⟩ :=
    .codeToken (visible 1 rfl rfl) mark
  have visited : Visits dividedSource ⟨.code false [] (.mark "."), spot 2⟩ :=
    (Relation.ReflTransGen.single toName).tail toMark
  let n : MemberName dividedSource :=
    ⟨false, [], ".", .inl rfl, spot 2, visited, spot 2, visible 2 rfl rfl, "in",
      ⟨spot 4, past₂⟩, name⟩
  have renamed : n.renamed "ab" = "a.ab / 2 + '/';" := rfl
  refine ⟨n, rfl, isName_of_ascii (by decide) (by decide), rfl, by decide +kernel, ?_⟩
  rw [renamed]
  decide +kernel

end Document

end StyleBinding
