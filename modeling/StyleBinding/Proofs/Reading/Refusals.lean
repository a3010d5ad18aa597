import StyleBinding.Proofs.Import.Escape
import StyleBinding.Proofs.Reading.Placement

/-!
# What is refused

A source that is no module is refused, and the refusal says something about the
source. A syntax error is reported at a place in the source. The two refusals
of another kind come from code points of one kind each: from a digit that is no
decimal digit where a number would start, and from an escape beyond the last code
point in the text of a declaration. A source without them is read or gets a
syntax error.

Every reader hands on the refusals of those it calls, so one theorem for each of
them follows its recursion. What is carried along is that reading stays in the
source.
-/

namespace StyleBinding

open Document Cursor

/-- A digit that is no decimal digit stands at an offset, or behind the point
there. -/
def Text.StrayDigitAt (t : Text) (offset : Nat) : Prop :=
  ∃ x : CodePoint, x.isDigit = true ∧ x.isDecimal = false ∧
    (t[offset]? = some x ∨ (t[offset]? = some (.scalar '.') ∧ t[offset + 1]? = some x))

/-- What a refusal says about the source it is given for. -/
def Refusal.Warranted (source : Text) : Refusal → Prop
  | .syntaxError e => e.offset ≤ source.length
  | .strayDigit offset => source.StrayDigitAt offset
  | .escapeInImport e => 0x110000 ≤ e.number ∧ ∃ declaration : Text, declaration <:+: source ∧
      Text.startsWith declaration "import" = true ∧ declaration.HasEscape e.number

variable {source : Text} {refusal : Refusal}

/-! ## Places in the source -/

namespace Cursor

variable {c d : Cursor}

theorem Upto.offset_le_length (h : (ofSource source).Upto c) : c.offset ≤ source.length := by
  have := h.offset_add_length
  simp only [ofSource] at this
  omega

theorem Upto.take_infix (h : (ofSource source).Upto c) (n : Nat) : c.rest.take n <:+: source := by
  obtain ⟨m, _, rfl⟩ := h
  exact (List.take_prefix n _).isInfix.trans (List.drop_suffix m source).isInfix

theorem Upto.warranted (h : (ofSource source).Upto c) (cause : SyntaxCause) :
    (Refusal.at cause c.offset).Warranted source := h.offset_le_length

/-! ## Blanks, clauses and tokens -/

theorem warranted_of_skipTrivia (here : (ofSource source).Upto c)
    (h : c.skipTrivia = .error refusal) : refusal.Warranted source := by
  fun_induction skipTrivia c with
  | case1 | case3 | case5 | case7 => cases h
  | case2 c x t hr _ e failed ih =>
    cases h
    exact ih (here.trans (past_of_cons hr).upto) failed
  | case4 c x t hr _ n hn bounds e failed ih =>
    cases h
    exact ih (here.trans (upto_advance bounds.2)) failed
  | case6 =>
    cases h
    exact here.warranted _

theorem warranted_of_findPath {start : Nat} {depth : Int} {seen : Bool} {last : Text}
    (here : (ofSource source).Upto c) (started : start ≤ source.length)
    (h : findPath start depth seen last c = .error refusal) : refusal.Warranted source := by
  fun_induction findPath start depth seen last c with
  | case5 | case7 | case9 | case12 => cases h
  | case1 =>
    cases h
    exact warranted_of_skipTrivia here ‹_›
  | case2 =>
    cases h
    exact started
  | case3 _ _ _ c d hd | case13 _ _ _ c d hd =>
    cases h
    exact (here.trans hd).warranted _
  | case4 _ _ _ c d hd =>
    rename_i past _ _ failed ih
    cases h
    exact ih ((here.trans hd).trans past.upto) failed
  | case6 =>
    rename_i past _ _ _ failed ih
    cases h
    exact ih (here.trans past.upto) failed
  | case8 =>
    rename_i past _ _ _ _ failed
    cases h
    exact warranted_of_skipTrivia (here.trans past.upto) failed
  | case10 =>
    rename_i past _ _ _ _ he _ _
    cases h
    exact ((here.trans past.upto).trans he).warranted _
  | case11 =>
    rename_i past _ _ _ _ failed ih
    cases h
    exact ih (here.trans past.upto) failed

/-- A clause is refused as malformed where the declaration starts, or for an escape in
its text. -/
theorem warranted_of_readClause {path : Text} {n : Nat} (here : (ofSource source).Upto c)
    (word : Text.startsWith (c.rest.take n) "import" = true)
    (h : readClause (c.rest.take n) path c.offset = .error refusal) :
    refusal.Warranted source := by
  unfold readClause at h
  split at h
  · cases h
  split at h
  · cases h
  · cases h
    exact here.warranted _
  · rename_i failed
    cases h
    obtain ⟨beyond, escape⟩ := ImportClause.hasEscape_of_parse failed
    exact ⟨beyond, _, here.take_infix n, word, escape⟩

end Cursor

theorem Lexeme.decimalLength?_eq_none {x : CodePoint} {t : Text}
    (h : decimalLength? (x :: t) = none) :
    x.isDecimal = false ∧ (x.is '.' = true → t.head?.any (·.isDecimal) = false) := by
  rw [decimalLength?_cons] at h
  split at h
  · split at h <;> cases h
  rename_i noDigit
  split at h
  · cases h
  rename_i noFraction
  refine ⟨eq_false_of_ne_true noDigit, fun isPoint => ?_⟩
  rw [isPoint, Bool.true_and] at noFraction
  exact eq_false_of_ne_true noFraction

namespace Lead

variable {c : Cursor}

/-- Where a number would start and none does, there is a stray digit. -/
theorem strayDigitAt (here : c.On source) (starts : startsNumber c.rest = true)
    (none : Lexeme.numberLength? c.rest = none) : source.StrayDigitAt c.offset := by
  have first := here.getElem? 0
  have second := here.getElem? 1
  cases hr : c.rest with
  | nil =>
    rw [hr] at starts
    cases starts
  | cons x t =>
    rw [hr] at starts none first second
    rw [List.getElem?_cons_zero, Nat.add_zero] at first
    rw [List.getElem?_cons_succ] at second
    have noDecimal : Lexeme.decimalLength? (x :: t) = .none := by
      rw [Lexeme.numberLength?, Option.map_eq_none_iff, Lexeme.plainNumberLength?] at none
      split at none
      · cases none
      · exact Option.map_eq_none_iff.1 none
    obtain ⟨noDigit, behindPoint⟩ := Lexeme.decimalLength?_eq_none noDecimal
    rw [startsNumber, Bool.or_eq_true, Bool.and_eq_true] at starts
    rcases starts with isDigit | ⟨isPoint, isDigit⟩
    · exact ⟨x, isDigit, noDigit, .inl first⟩
    · have noDigit' := behindPoint isPoint
      cases t with
      | nil => cases isDigit
      | cons y t =>
        rw [CodePoint.is_iff.1 isPoint] at first
        exact ⟨y, isDigit, noDigit', .inr ⟨first, second⟩⟩

theorem warranted_of_lexeme {length? : Text → Option Nat}
    {bounds : ∀ {t n}, length? t = some n → 0 < n ∧ n ≤ t.length} {r : Refusal}
    (h : lexeme c length? bounds r = .error refusal)
    (warranted : length? c.rest = none → r.Warranted source) : refusal.Warranted source := by
  unfold lexeme at h
  split at h
  · cases h
  · cases h
    exact warranted ‹_›

theorem warranted_of_plain {topLevel : Bool} {prev : Previous} {x : CodePoint} {t : Text}
    {hr : c.rest = x :: t} (here : (ofSource source).Upto c)
    (h : plain topLevel prev c hr = .error refusal) : refusal.Warranted source := by
  unfold plain at h
  split at h
  · rename_i starts
    exact warranted_of_lexeme h (strayDigitAt here.on starts)
  split at h
  · unfold word at h
    split at h
    · split at h
      · rename_i failed
        cases h
        unfold startsDeclaration at failed
        split at failed
        · rename_i failed'
          cases failed
          exact warranted_of_skipTrivia
            (here.trans (upto_advance (Lexeme.nameLength_le _))) failed'
        · split at failed <;> cases failed
      · cases h
      · cases h
    · cases h
  · split at h <;> cases h

theorem warranted_of_read {topLevel : Bool} {prev : Previous} {x : CodePoint} {t : Text}
    {hr : c.rest = x :: t} (here : (ofSource source).Upto c)
    (h : read topLevel prev c hr = .error refusal) : refusal.Warranted source := by
  unfold read at h
  split at h
  · exact warranted_of_lexeme h fun _ => here.warranted _
  split at h
  · cases h
  split at h
  · cases h
  · cases h
  split at h
  · cases h
  split at h
  · split at h
    · cases h
    · exact warranted_of_plain here h
  · exact warranted_of_plain here h

end Lead

/-! ## The readers -/

namespace Document

mutual

theorem warranted_of_readCode {nested : Bool} {opened : List Opened} {prev : Previous} {c : Cursor}
    (here : (ofSource source).Upto c) (h : readCode nested opened prev c = .error refusal) :
    refusal.Warranted source := by
  rw [readCode] at h
  split at h
  · rename_i failed
    cases h
    exact warranted_of_skipTrivia here failed
  rename_i d hd skips
  have there := here.trans hd
  have asLong := hd.length_le
  split at h
  · split at h
    · cases h
      exact there.warranted _
    split at h <;> cases h
    exact there.warranted _
  rename_i x t hr
  have next := there.trans (past_of_cons hr).upto
  have shorter := (past_of_cons hr).length_lt
  split at h
  · rename_i failed
    cases h
    exact Lead.warranted_of_read there failed
  · split at h
    · rename_i failed
      cases h
      exact warranted_of_readTemplate next there.offset_le_length failed
    rename_i r _
    have shorter' := r.past.length_lt
    split at h <;> cases h
    rename_i failed
    exact warranted_of_readCode (next.trans r.past.upto) failed
  · dsimp only at h
    split at h <;> cases h
    rename_i failed
    exact warranted_of_readCode next failed
  · split at h
    · split at h <;> cases h
      exact there.warranted _
    split at h
    · split at h <;> cases h
      rename_i failed
      exact warranted_of_readCode next failed
    · cases h
      exact there.warranted _
  · split at h
    · rename_i failed
      cases h
      exact warranted_of_readElement there failed
    rename_i r _
    have shorter' := r.past.length_lt
    split at h <;> cases h
    rename_i failed
    exact warranted_of_readCode (there.trans r.past.upto) failed
  · rename_i keyword lead
    obtain ⟨_, _, word, isEnd⟩ := Lead.At.of_declaration ⟨x, t, hr, lead⟩
    split at h
    · rename_i failed
      cases h
      exact warranted_of_readDeclaration there word isEnd failed
    rename_i r _
    have shorter' := r.past.length_lt
    split at h <;> cases h
    rename_i failed
    exact warranted_of_readCode (there.trans r.past.upto) failed
  · rename_i stop prev' _
    have shorter' := stop.2.length_lt
    split at h <;> cases h
    rename_i failed
    exact warranted_of_readCode (there.trans stop.2.upto) failed
termination_by 8 * c.rest.length + 4

theorem warranted_of_readBlock {c : Cursor} (here : (ofSource source).Upto c)
    (h : readBlock c = .error refusal) : refusal.Warranted source := by
  rw [readBlock] at h
  split at h
  · rename_i failed
    cases h
    exact warranted_of_readCode here failed
  rename_i r _
  split at h <;> cases h
  exact (here.trans r.upto).warranted _
termination_by 8 * c.rest.length + 5

theorem warranted_of_readTemplate {start : Nat} {c : Cursor} (here : (ofSource source).Upto c)
    (started : start ≤ source.length) (h : readTemplate start c = .error refusal) :
    refusal.Warranted source := by
  rw [readTemplate] at h
  split at h
  · cases h
    exact started
  rename_i x t hr
  have next := past_of_cons hr
  have shorter := next.length_lt
  dsimp only at h
  split at h
  · split at h
    · cases h
      exact started
    rename_i y u
    have step : c.Past (c.advance 2) := past_advance (by omega) (by simp [hr])
    have shorter' := step.length_lt
    split at h <;> cases h
    rename_i failed
    exact warranted_of_readTemplate (here.trans step.upto) started failed
  split at h
  · cases h
  split at h
  · rename_i opens
    have step : c.Past (c.advance 2) := past_advance (by omega) (le_length_of_startsWith opens)
    have shorter' := step.length_lt
    split at h
    · rename_i failed
      cases h
      exact warranted_of_readBlock (here.trans step.upto) failed
    rename_i b _
    have shorter'' := b.past.length_lt
    split at h <;> cases h
    rename_i failed
    exact warranted_of_readTemplate ((here.trans step.upto).trans b.past.upto) started failed
  · split at h <;> cases h
    rename_i failed
    exact warranted_of_readTemplate (here.trans next.upto) started failed
termination_by 8 * c.rest.length + 0

theorem warranted_of_readDeclaration {c : Cursor} {keyword : { k : Cursor // c.Past k }}
    (here : (ofSource source).Upto c)
    (word : c.rest.take (Lexeme.nameLength c.rest) = ("import" : Text))
    (isEnd : keyword.1 = c.advance (Lexeme.nameLength c.rest))
    (h : readDeclaration c keyword = .error refusal) : refusal.Warranted source := by
  have behind := here.trans keyword.2.upto
  rw [readDeclaration] at h
  split at h
  · rename_i failed
    cases h
    exact warranted_of_skipTrivia behind failed
  rename_i p hp _
  dsimp only at h
  split at h
  · rename_i failed
    cases h
    split at failed
    · cases failed
    · exact warranted_of_findPath (behind.trans hp) here.offset_le_length failed
  rename_i q hq _
  have gap := hp.trans hq
  have shorter := (keyword.2.trans_upto gap).length_lt
  split at h
  · cases h
    exact (behind.trans gap).warranted _
  rename_i n hs
  have step := past_advance (c := q) (Lexeme.stringLength?_bounds hs).1
    (Lexeme.stringLength?_bounds hs).2
  have shorter' := step.length_lt
  split at h
  · rename_i failed
    cases h
    exact warranted_of_readImportAttributes ((behind.trans gap).trans step.upto) failed
  split at h <;> cases h
  rename_i failed
  refine warranted_of_readClause here ?_ failed
  -- The text of the declaration is longer than its keyword.
  have reached := gap.offset_le
  rw [isEnd] at reached
  have long : Lexeme.nameLength c.rest ≤ q.offset + n - c.offset := by
    simp only [advance] at reached
    omega
  refine List.isPrefixOf_iff_prefix.2 ?_
  rw [← word]
  exact List.take_prefix_take_left long
termination_by 8 * c.rest.length + 0

theorem warranted_of_readImportAttributes {c : Cursor} (here : (ofSource source).Upto c)
    (h : readImportAttributes c = .error refusal) : refusal.Warranted source := by
  rw [readImportAttributes] at h
  split at h
  · rename_i failed
    cases h
    exact warranted_of_skipTrivia here failed
  rename_i d hd _
  dsimp only at h
  have word := hd.trans (upto_advance (Lexeme.nameLength_le d.rest))
  split at h
  · split at h
    · rename_i failed
      cases h
      exact warranted_of_skipTrivia (here.trans word) failed
    rename_i b hb _
    have asLong := (word.trans hb).length_le
    split at h
    · cases h
    rename_i x t hr
    have step := past_of_cons hr
    have shorter := step.length_lt
    split at h
    · split at h <;> cases h
      rename_i failed
      exact warranted_of_readBlock ((here.trans (word.trans hb)).trans step.upto) failed
    · cases h
  · cases h
termination_by 8 * c.rest.length + 1

theorem warranted_of_readElement {c : Cursor} (here : (ofSource source).Upto c)
    (h : readElement c = .error refusal) : refusal.Warranted source := by
  rw [readElement] at h
  split at h
  · cases h
    exact here.warranted _
  rename_i x t hr
  have next := past_of_cons hr
  dsimp only at h
  split at h
  · rename_i failed
    cases h
    exact warranted_of_skipTrivia (here.trans next.upto) failed
  rename_i d hd _
  have shorter := (next.trans_upto hd).length_lt
  have there := here.trans (next.trans_upto hd).upto
  split at h
  · cases h
    exact there.warranted _
  rename_i y u hx
  split at h
  · have step := past_of_cons hx
    have shorter' := step.length_lt
    split at h <;> cases h
    rename_i failed
    exact warranted_of_readChildren (there.trans step.upto) here.offset_le_length failed
  split at h
  · rename_i hn
    have step := past_advance hn (Lexeme.tagNameLength_le d.rest)
    have shorter' := step.length_lt
    split at h
    · rename_i failed
      cases h
      exact warranted_of_readTag (there.trans step.upto) here.offset_le_length failed
    rename_i tag _
    have shorter'' := tag.past.length_lt
    split at h
    · cases h
    · split at h <;> cases h
      rename_i failed
      exact warranted_of_readChildren ((there.trans step.upto).trans tag.past.upto)
        here.offset_le_length failed
  · cases h
    exact there.warranted _
termination_by 8 * c.rest.length + 0

theorem warranted_of_readTag {name : Text} {start : Nat} {region : Span} {c : Cursor}
    (here : (ofSource source).Upto c) (started : start ≤ source.length)
    (h : readTag name start region c = .error refusal) : refusal.Warranted source := by
  rw [readTag] at h
  split at h
  · rename_i failed
    cases h
    exact warranted_of_skipTrivia here failed
  rename_i d hd _
  have asLong := hd.length_le
  split at h
  · cases h
    exact started
  split at h
  · cases h
  split at h
  · cases h
  dsimp only at h
  split at h
  · rename_i failed
    cases h
    exact warranted_of_readAttribute (here.trans hd) failed
  rename_i a _
  have shorter := a.past.length_lt
  split at h <;> cases h
  rename_i failed
  exact warranted_of_readTag ((here.trans hd).trans a.past.upto) started failed
termination_by 8 * c.rest.length + 3

theorem warranted_of_readAttribute {c : Cursor} (here : (ofSource source).Upto c)
    (h : readAttribute c = .error refusal) : refusal.Warranted source := by
  rw [readAttribute] at h
  split at h
  · cases h
    exact here.warranted _
  rename_i x t hr
  have next := past_of_cons hr
  have shorter := next.length_lt
  split at h
  · dsimp only at h
    split at h <;> cases h
    rename_i failed
    exact warranted_of_readBlock (here.trans next.upto) failed
  split at h
  · rename_i hn
    have step := past_advance hn (Lexeme.attributeNameLength_le c.rest)
    have shorter' := step.length_lt
    dsimp only at h
    split at h
    · rename_i failed
      cases h
      exact warranted_of_skipTrivia (here.trans step.upto) failed
    rename_i q hq _
    have asLong := hq.length_le
    have there := (here.trans step.upto).trans hq
    split at h
    · cases h
    rename_i y u hx
    split at h
    · have step' := past_of_cons hx
      have shorter'' := step'.length_lt
      split at h
      · rename_i failed
        cases h
        exact warranted_of_skipTrivia (there.trans step'.upto) failed
      rename_i v hv _
      have asLong' := hv.length_le
      split at h <;> cases h
      rename_i failed
      exact warranted_of_readValue ((there.trans step'.upto).trans hv) failed
    · cases h
  · cases h
    exact here.warranted _
termination_by 8 * c.rest.length + 2

theorem warranted_of_readValue {c : Cursor} (here : (ofSource source).Upto c)
    (h : readValue c = .error refusal) : refusal.Warranted source := by
  rw [readValue] at h
  split at h
  · cases h
    exact here.warranted _
  rename_i x t hr
  have next := past_of_cons hr
  have shorter := next.length_lt
  split at h
  · split at h <;> cases h
    exact here.warranted _
  split at h
  · dsimp only at h
    split at h <;> cases h
    rename_i failed
    exact warranted_of_readBlock (here.trans next.upto) failed
  split at h
  · split at h <;> cases h
    rename_i failed
    exact warranted_of_readElement here failed
  · cases h
    exact here.warranted _
termination_by 8 * c.rest.length + 1

theorem warranted_of_readChildren {name : Text} {start : Nat} {c : Cursor}
    (here : (ofSource source).Upto c) (started : start ≤ source.length)
    (h : readChildren name start c = .error refusal) : refusal.Warranted source := by
  rw [readChildren] at h
  split at h
  · cases h
    exact started
  rename_i x t hr
  have next := past_of_cons hr
  have shorter := next.length_lt
  dsimp only at h
  split at h
  · split at h
    · rename_i failed
      cases h
      exact warranted_of_readBlock (here.trans next.upto) failed
    rename_i b _
    have shorter' := b.past.length_lt
    split at h <;> cases h
    rename_i failed
    exact warranted_of_readChildren ((here.trans next.upto).trans b.past.upto) started failed
  split at h
  · split at h
    · rename_i failed
      cases h
      exact warranted_of_skipTrivia (here.trans next.upto) failed
    split at h
    · split at h
      · cases h
        exact here.warranted _
      split at h <;> cases h
      exact here.warranted _
    · split at h
      · rename_i failed
        cases h
        exact warranted_of_readElement here failed
      rename_i e _
      have shorter' := e.past.length_lt
      split at h <;> cases h
      rename_i failed
      exact warranted_of_readChildren (here.trans e.past.upto) started failed
  split at h <;> cases h
  rename_i failed
  have shorter' := (c.skipText hr).2.length_lt
  exact warranted_of_readChildren (here.trans (c.skipText hr).2.upto) started failed
termination_by 8 * c.rest.length + 3

end

/-- Every source is read or refused, and a refusal is a syntax error at a place in the
source, or comes from a digit that is no decimal digit, or from an escape beyond the
last code point in a declaration. -/
theorem parse_ok_or_warranted (source : Text) :
    (∃ d, parse source = .ok d) ∨ ∃ r, parse source = .error r ∧ r.Warranted source := by
  unfold parse
  split
  · rename_i r failed
    exact .inr ⟨r, rfl, warranted_of_readCode (codeStart_upto source) failed⟩
  · exact .inl ⟨_, rfl⟩

/-- A source of one digit that is no decimal digit. -/
def superscriptSource : Text := Text.ofString "\u00b2"

/-- Such a digit is refused, and not with a syntax error. -/
theorem superscriptSource_refused : parse superscriptSource = .error (.strayDigit 0) := by
  have refused : (match parse superscriptSource with
    | .error r => decide (r = .strayDigit 0)
    | .ok _ => false) = true := by decide +kernel
  split at refused
  · rename_i r failed
    rw [failed, of_decide_eq_true refused]
  · cases refused

end Document

end StyleBinding
