import StyleBinding.Proofs.Reading.Clauses
import StyleBinding.Proofs.Reading.Relocation

/-!
# The path that the grammar reads

The scanner comes to the path of a declaration by a walk of its own, and the grammar reads
the text that ends with it. Cutting the source behind the path does not change the walk,
and it leads to one place alone, the one that it leads to for what the grammar reads. So
the literal that the scanner records is the one that the clause names the module by, unless
one of the names of the clause is `as`.
-/

namespace StyleBinding

open Cursor Document Lexeme

namespace Cursor

variable {depth : Int} {seen : Bool} {last : Text} {c k p q : Cursor}

theorem upto_place {source : Text} {m n : Nat} (le : m ≤ n) (bounded : n ≤ source.length) :
    (place source m).Upto (place source n) := by
  refine ⟨n - m, ?_, by rw [advance_place, Nat.add_sub_cancel' le]⟩
  simp only [place, List.length_drop]
  omega

/-! ## One place -/

theorem FindsLiteral.upto (h : FindsLiteral depth seen last c q) : c.Upto q := by
  induction h with
  | literal skips isString _ ih =>
    exact (skips.upto.trans (upto_advance (stringLength?_bounds isString).2)).trans ih
  | mark skips hr _ _ ih => exact (skips.upto.trans (past_of_cons hr).upto).trans ih
  | word skips eq _ _ _ ih =>
    exact (skips.upto.trans (upto_advance (eq ▸ nameLength_le _))).trans ih
  | keyword skips eq _ _ skips' _ =>
    exact (skips.upto.trans (upto_advance (eq ▸ nameLength_le _))).trans skips'.upto

theorem FindsLiteral.unique (h : FindsLiteral depth seen last c p)
    (h' : FindsLiteral depth seen last c q) : p = q := by
  obtain ⟨_, found⟩ := findPath_of_findsLiteral h 0
  obtain ⟨_, found'⟩ := findPath_of_findsLiteral h' 0
  rw [found] at found'
  cases found'
  rfl

/-- The path is behind the blanks and comments that the keyword is followed by. -/
theorem FindsPath.exists_skips (h : k.FindsPath q) : ∃ p, k.Skips p ∧ p.Upto q := by
  obtain ⟨p, skips, ⟨_, rfl⟩ | ⟨_, finds⟩⟩ := h
  · exact ⟨q, skips, .refl q⟩
  · exact ⟨p, skips, finds.upto⟩

theorem FindsPath.upto (h : k.FindsPath q) : k.Upto q := by
  obtain ⟨p, skips, upto⟩ := h.exists_skips
  exact skips.upto.trans upto

theorem FindsBrace.upto (h : k.FindsBrace q) : k.Upto q := by
  obtain ⟨d, skips, _, skips'⟩ := h
  exact skips.upto.trans ((upto_advance (nameLength_le d.rest)).trans skips'.upto)

/-- The path of a declaration is found in one place. -/
theorem FindsPath.unique (h : k.FindsPath p) (h' : k.FindsPath q) : p = q := by
  obtain ⟨b, skips, found⟩ := h
  obtain ⟨b', skips', found'⟩ := h'
  obtain rfl := skips.unique skips'
  rcases found with ⟨isQuote, rfl⟩ | ⟨noQuote, finds⟩ <;>
    rcases found' with ⟨isQuote', rfl⟩ | ⟨noQuote', finds'⟩
  · rfl
  · rw [isQuote] at noQuote'
    cases noQuote'
  · rw [noQuote] at isQuote'
    cases isQuote'
  · exact finds.unique finds'

end Cursor

/-! ## In another place -/

namespace Relocation

variable {m : Relocation} {depth : Int} {seen : Bool} {last : Text} {c d k q : Cursor} {n : Nat}

/-- The same text follows where a place is and where it goes, up to a quote. -/
def KeepsQuote (m : Relocation) (c : Cursor) : Prop :=
  ∃ u x s t, isQuote x = true ∧ c.rest = u ++ x :: s ∧ (m.place c).rest = u ++ x :: t

namespace KeepsQuote

theorem of_upto (keeps : m.KeepsQuote d) (h : m.Covers c) (upto : c.Upto d)
    (stops : d.Upto m.stop) : m.KeepsQuote c := by
  obtain ⟨v, rest, rest', _⟩ := h.split upto stops
  obtain ⟨u, x, s, t, quote, here, there⟩ := keeps
  exact ⟨v ++ u, x, s, t, quote, by rw [rest, here, List.append_assoc],
    by rw [rest', there, List.append_assoc]⟩

theorem ne_nil (keeps : m.KeepsQuote c) : c.rest ≠ [] := by
  obtain ⟨u, x, s, t, _, here, _⟩ := keeps
  rw [here]
  exact List.append_ne_nil_of_right_ne_nil u (List.cons_ne_nil x s)

theorem head?_eq (keeps : m.KeepsQuote c) : (m.place c).rest.head? = c.rest.head? := by
  obtain ⟨u, x, s, t, _, here, there⟩ := keeps
  rw [here, there]
  cases u <;> rfl

/-- No name goes on with a quote. -/
theorem nameLength_eq (keeps : m.KeepsQuote c) :
    nameLength (m.place c).rest = nameLength c.rest := by
  have heads := keeps.head?_eq
  obtain ⟨u, x, s, t, quote, here, there⟩ := keeps
  have noName : x.isName = false := by
    by_contra isName
    rw [not_isQuote_of_isName (Bool.not_eq_false _ ▸ isName)] at quote
    cases quote
  have runs : Text.countWhile (·.isName) (u ++ x :: t) =
      Text.countWhile (·.isName) (u ++ x :: s) := by
    clear here there
    induction u with
    | nil => simp only [List.nil_append, Text.countWhile, noName, Bool.false_eq_true, if_false]
    | cons y u ih => simp only [List.cons_append, Text.countWhile, ih]
  rw [nameLength_eq_ite, nameLength_eq_ite, heads, here, there, runs]

/-- A comment starts with two marks, neither of which is a quote. -/
theorem skips (keeps : m.KeepsQuote c) (skips : c.Skips c) :
    (m.place c).Skips (m.place c) := by
  obtain ⟨noBlank, noComment⟩ := skips_self_iff.1 skips
  obtain ⟨u, x, s, t, quote, here, there⟩ := keeps
  rw [here] at noBlank noComment
  obtain _ | ⟨y, u⟩ := u
  · exact skips_of_startsToken there (startsToken_of_isQuote quote)
  · refine skips_self_iff.2 ?_
    rw [there]
    refine ⟨noBlank, ?_⟩
    cases u <;> exact noComment

end KeepsQuote

namespace Covers

theorem stringLength?_eq (h : m.Covers c) (isString : stringLength? c.rest = some n)
    (stops : (c.advance n).Upto m.stop) : stringLength? (m.place c).rest = some n := by
  have upto : c.Upto (c.advance n) := upto_advance (stringLength?_bounds isString).2
  obtain ⟨u, rest, rest', same, _⟩ := h.split upto stops
  obtain rfl : u.length = n := Nat.add_left_cancel (congrArg Cursor.offset same).symm
  rw [rest']
  exact Lexeme.stringLength?_eq (rest ▸ isString) (Nat.le_refl _)

/-- Blanks and comments in front of a token that the walk goes on behind. -/
theorem skips_of_keepsQuote (h : m.Covers c) (skips : c.Skips d) (upto : d.Upto q)
    (stops : q.Upto m.stop) (keeps : m.KeepsQuote q) :
    m.Covers d ∧ m.KeepsQuote d ∧ (m.place c).Skips (m.place d) := by
  have covers := h.of_upto skips.upto (upto.trans stops)
  have keeps := keeps.of_upto covers upto stops
  exact ⟨covers, keeps, h.skips skips (upto.trans stops) keeps.ne_nil (keeps.skips skips.again)⟩

/-- What the walk does in a stretch it does where the stretch goes. -/
theorem findsLiteral (h : m.Covers c) (finds : FindsLiteral depth seen last c q)
    (stops : q.Upto m.stop) (keeps : m.KeepsQuote q) :
    FindsLiteral depth seen last (m.place c) (m.place q) := by
  induction finds with
  | @literal depth seen last c d q n skips isString finds ih =>
    have upto : d.Upto (d.advance n) := upto_advance (stringLength?_bounds isString).2
    have rest := finds.upto.trans stops
    obtain ⟨covers, _, skips'⟩ := h.skips_of_keepsQuote skips (upto.trans finds.upto) stops keeps
    have behind := covers.of_upto upto rest
    refine .literal skips' (covers.stringLength?_eq isString rest) ?_
    rw [← covers.place_advance behind]
    exact ih behind stops keeps
  | @mark depth seen last c d q x t skips hr isMark finds ih =>
    have upto := (past_of_cons hr).upto
    have rest := finds.upto.trans stops
    obtain ⟨covers, _, skips'⟩ := h.skips_of_keepsQuote skips (upto.trans finds.upto) stops keeps
    have behind := covers.of_upto upto rest
    obtain ⟨s, hr'⟩ := covers.cons hr rest
    refine .mark skips' hr' isMark ?_
    rw [← covers.place_advance behind]
    exact ih behind stops keeps
  | @word depth seen last c d q n skips eq pos goesOn finds ih =>
    have upto : d.Upto (d.advance n) := upto_advance (eq ▸ nameLength_le _)
    have rest := finds.upto.trans stops
    obtain ⟨covers, keepsD, skips'⟩ :=
      h.skips_of_keepsQuote skips (upto.trans finds.upto) stops keeps
    have behind := covers.of_upto upto rest
    have word := covers.take upto rest
    refine .word skips' (eq.trans keepsD.nameLength_eq.symm) pos (word ▸ goesOn) ?_
    rw [word, ← covers.place_advance behind]
    exact ih behind stops keeps
  | @keyword depth seen last c d q n skips eq pos ends skips₂ isQuote =>
    have upto : d.Upto (d.advance n) := upto_advance (eq ▸ nameLength_le _)
    have rest := skips₂.upto.trans stops
    obtain ⟨covers, keepsD, skips'⟩ :=
      h.skips_of_keepsQuote skips (upto.trans skips₂.upto) stops keeps
    have behind := covers.of_upto upto rest
    have word := covers.take upto rest
    obtain ⟨_, _, skips₂'⟩ := behind.skips_of_keepsQuote skips₂ (.refl q) stops keeps
    refine .keyword skips' (eq.trans keepsD.nameLength_eq.symm) pos (word ▸ ends) ?_ ?_
    · rwa [← covers.place_advance behind]
    · rwa [keeps.head?_eq]

theorem findsPath (h : m.Covers k) (found : k.FindsPath q) (stops : q.Upto m.stop)
    (keeps : m.KeepsQuote q) : (m.place k).FindsPath (m.place q) := by
  obtain ⟨p, skips, ⟨isQuote, rfl⟩ | ⟨noQuote, finds⟩⟩ := found
  · obtain ⟨_, _, skips'⟩ := h.skips_of_keepsQuote skips (.refl q) stops keeps
    exact ⟨m.place q, skips', .inl ⟨by rwa [keeps.head?_eq], rfl⟩⟩
  · obtain ⟨covers, keepsP, skips'⟩ := h.skips_of_keepsQuote skips finds.upto stops keeps
    refine ⟨m.place p, skips', .inr ⟨by rwa [keepsP.head?_eq], ?_⟩⟩
    exact covers.findsLiteral finds stops keeps

end Covers

/-- What a span of a source is by itself. -/
def cutout (source : Text) (s : Span) : Relocation := ⟨s.start, Cursor.place source s.stop, 0, []⟩

section Cutout

variable {source : Text} {s : Span} {n : Nat}

theorem covers_cutout (above : s.start ≤ n) (below : n ≤ s.stop) (le : s.stop ≤ source.length) :
    (cutout source s).Covers (Cursor.place source n) :=
  ⟨above, upto_place below le⟩

theorem place_cutout (above : s.start ≤ n) :
    (cutout source s).place (Cursor.place source n) =
      Cursor.place (s.text source) (n - s.start) := by
  simp only [Relocation.place, cutout, Cursor.place, Relocation.offset, Nat.add_zero,
    List.append_nil, Span.text, Text.slice, List.drop_take, List.drop_drop, Cursor.mk.injEq,
    true_and]
  rw [Nat.add_sub_cancel' above, Nat.sub_sub_sub_cancel_right above]

end Cutout

end Relocation

/-! ## Declarations -/

/-- Where the walk over a declaration ends, and the literal that it ends at. -/
structure ImportDeclaration.LeadsToPath (source : Text) (i : ImportDeclaration) : Prop where
  findsPath : (Cursor.place source i.gap.start).FindsPath (Cursor.place source i.path.start)
  isString : stringLength? (source.drop i.path.start) = some i.path.length

namespace Document

variable {source : Text} {d : Document} {i : ImportDeclaration}

theorem Reads.declaration_leadsToPath {strict : Bool} {k c d : Cursor} {f : Found}
    (h : Reads strict (.declaration k) c f d) (on : c.On source) :
    ∀ i ∈ f.imports, i.LeadsToPath source := by
  cases h with
  | @declaration _ _ q e n clause ofTypes f hk hq hs he found inner means =>
    have onK := on.upto hk.upto
    have onQ := onK.upto hq
    have rest : q.rest = source.drop q.offset := congrArg Cursor.rest onQ
    intro i member
    rw [Found.imports_append, inner.imports_eq_nil rfl] at member
    rw [List.mem_singleton.1 member]
    constructor
    · simp only [spanTo]
      rwa [← onK, ← onQ]
    · simp only [spanTo, Span.length, advance, Nat.add_sub_cancel_left]
      rw [← rest]
      exact hs

theorem leadsToPath_of_parse (read : parse source = .ok d) :
    ∀ i ∈ d.imports, i.LeadsToPath source := by
  obtain ⟨found, stop, reads, rfl⟩ := Reads.of_parse read
  exact reads.forall_imports (fun inner on => inner.declaration_leadsToPath on)
    (codeStart_on source)

end Document

namespace ImportDeclaration

open ImportClause

variable {source path : Text} {i : ImportDeclaration} {w : Written} {k : Gap}

/-- The walk over the text of a declaration ends at the literal that the text ends with. -/
theorem Laid.findsPath (laid : i.Laid source) (leads : i.LeadsToPath source) :
    ∃ q, ((Cursor.ofSource (i.text source)).advance 6).FindsPath q ∧
      stringLength? q.rest = some i.path.length ∧
      q.rest.take i.path.length = i.path.text source := by
  have gapStart := laid.gap_start
  have pathLt := laid.path_lt
  have gapLe : i.gap.start ≤ i.path.start := laid.gap_stop ▸ i.gap.le
  have bounds := stringLength?_bounds leads.isString
  rw [List.length_drop, Span.length] at bounds
  have le : i.path.stop ≤ source.length := by omega
  have aboveK : i.span.start ≤ i.gap.start := by omega
  have aboveQ : i.span.start ≤ i.path.start := by omega
  let s : Span := ⟨i.span.start, i.path.stop, by omega⟩
  let m := Relocation.cutout source s
  have coversK : m.Covers (place source i.gap.start) :=
    Relocation.covers_cutout aboveK (gapLe.trans i.path.le) le
  have coversQ : m.Covers (place source i.path.start) :=
    Relocation.covers_cutout aboveQ i.path.le le
  have start : m.place (place source i.gap.start) =
      (Cursor.ofSource (i.text source)).advance 6 := by
    refine (Relocation.place_cutout (s := s) aboveK).trans ?_
    simp only [s, gapStart, Nat.add_sub_cancel_left]
    rfl
  have atEnd : (place source i.path.start).advance i.path.length = m.stop := by
    rw [advance_place, Span.length, Nat.add_sub_cancel' i.path.le]
    rfl
  have keeps : m.KeepsQuote (place source i.path.start) := by
    obtain ⟨x, t, hr, isQuote⟩ := Document.isQuote_of_stringLength? leads.isString
    have upto : ((place source i.path.start).advance 1).Upto m.stop := by
      rw [advance_place]
      exact upto_place pathLt (by omega)
    obtain ⟨s, hr'⟩ := coversQ.cons hr upto
    exact ⟨[], x, t, s, isQuote, hr, hr'⟩
  have behind : ((place source i.path.start).advance i.path.length).Upto m.stop :=
    atEnd ▸ .refl m.stop
  refine ⟨m.place (place source i.path.start), ?_, coversQ.stringLength?_eq leads.isString behind,
    coversQ.take (atEnd ▸ coversQ.upto) behind⟩
  rw [← start]
  exact coversK.findsPath leads.findsPath coversQ.upto keeps

theorem Laid.startsWith_text (laid : i.Laid source) :
    (i.text source).startsWith "import" = true := by
  have gapStart := laid.gap_start
  have pathLt := laid.path_lt
  have gapLe : i.gap.start ≤ i.path.start := laid.gap_stop ▸ i.gap.le
  have keyword := laid.keyword
  rw [gapStart, Text.slice, Nat.add_sub_cancel_left] at keyword
  refine List.isPrefixOf_iff_prefix.2 ?_
  rw [text, Text.slice, ← keyword]
  exact List.take_prefix_take_left (by omega)

/-- The literal at the end of a declaration is the one that the grammar takes for its path. -/
theorem Laid.path_eq (laid : i.Laid source) (leads : i.LeadsToPath source)
    (declares : Declares ⟨.ofSource (i.text source), 0⟩ w path k)
    (others : w.boundNames.getLast? ≠ some ("as" : Text)) : path = i.path.text source := by
  obtain ⟨q, found, isString, literal⟩ := laid.findsPath leads
  have isKeyword := Document.literal?_import laid.startsWith_text
  obtain ⟨q', n, found', _, isString', rfl, _⟩ := declares.findsPath isKeyword others
  obtain rfl := found.unique found'
  cases isString.symm.trans isString'
  exact literal

end ImportDeclaration

/-- The literal of a declaration is the one that its clause names the module by. -/
theorem Document.path_of_parse {source : Text} {d : Document} (read : parse source = .ok d)
    {i : ImportDeclaration} (member : i ∈ d.imports) (noTypes : i.ofTypes = false)
    (others : ("as" : Text) ∉ i.clause.boundNames) :
    stringLength? (source.drop i.path.start) = some i.path.length ∧
      Literal.decodeQuoted (i.path.text source) = .ok i.clause.source := by
  have laid : i.Laid source := by
    have laid := (laid_of_parse read).declared.laid i member
    rwa [source_of_parse read] at laid
  have leads := leadsToPath_of_parse read i member
  obtain ⟨w, path, k, declares, _, means⟩ :=
    ImportClause.declares_of_parse ((isRead_of_parse read i member).parse noTypes)
  have notLast : w.boundNames.getLast? ≠ some ("as" : Text) := fun isLast =>
    others (ImportClause.Written.boundNames_subset means (List.mem_of_getLast? isLast))
  refine ⟨leads.isString, ?_⟩
  rw [← laid.path_eq leads declares notLast]
  exact ImportClause.Written.source_of_meaning means

end StyleBinding
