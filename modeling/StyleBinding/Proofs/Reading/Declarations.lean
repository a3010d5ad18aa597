import StyleBinding.Proofs.Reading.Forest
import StyleBinding.Proofs.Reading.Soundness
import StyleBinding.Proofs.Text.Cutting

/-!
# The import declarations of a source

Declarations stand at the top level, one behind another. The keyword comes
first, then the gap that a name may be put into, then the literal of the path.
No element reaches across any of them: it ends in front of the declaration,
stands in the attributes behind the path, or follows the declaration and the
blanks and comments behind it. So there is one place behind all declarations
that no element reaches across either. The clause of a declaration is read from its
text up to the end of the path.
-/

namespace StyleBinding

open Document Cursor

variable {strict : Bool}

/-! ## Places in a source -/

namespace Cursor

/-- The place at an offset of a source. -/
def place (source : Text) (offset : Nat) : Cursor := ⟨offset, source.drop offset⟩

theorem advance_place (source : Text) (m n : Nat) :
    (place source m).advance n = place source (m + n) := by
  simp only [place, advance, List.drop_drop]

/-- A cursor is a place in a source. -/
def On (source : Text) (c : Cursor) : Prop := c = Cursor.place source c.offset

theorem On.advance {source : Text} {c : Cursor} (h : c.On source) (n : Nat) :
    (c.advance n).On source := by
  have rest := congrArg Cursor.rest h
  simp only [Cursor.place] at rest
  simp only [On, Cursor.place, Cursor.advance, rest, List.drop_drop]

theorem On.upto {source : Text} {c d : Cursor} (h : c.On source) (k : c.Upto d) :
    d.On source := by
  obtain ⟨n, _, rfl⟩ := k
  exact h.advance n

theorem Upto.on {source : Text} {c : Cursor} (h : (ofSource source).Upto c) : c.On source :=
  have start : (ofSource source).On source := rfl
  start.upto h

theorem On.getElem? {source : Text} {c : Cursor} (h : c.On source) (n : Nat) :
    source[c.offset + n]? = c.rest[n]? := by
  have rest := congrArg Cursor.rest h
  simp only [Cursor.place] at rest
  rw [rest, List.getElem?_drop]

end Cursor

theorem Document.codeStart_upto (source : Text) : (ofSource source).Upto (codeStart source) := by
  unfold codeStart
  split
  · exact upto_advance (Text.countWhile_le _ source)
  · exact .refl _

theorem Document.codeStart_on (source : Text) : (codeStart source).On source :=
  (codeStart_upto source).on

/-! ## How a declaration lies -/

/-- How a declaration lies that is read from a source: the keyword, the gap, the
literal of the path, and the rest. -/
structure ImportDeclaration.Laid (source : Text) (i : ImportDeclaration) : Prop where
  keyword : source.slice i.span.start i.gap.start = ("import" : Text)
  gap_start : i.gap.start = i.span.start + 6
  gap_stop : i.gap.stop = i.path.start
  path_lt : i.path.start < i.path.stop
  path_le : i.path.stop ≤ i.span.stop
  unnamed : i.binding = none

/-- How an element lies to a declaration of its source: in front of it, in its
attributes, or behind what separates the declaration from the next token. -/
inductive Element.Clear (source : Text) (i : ImportDeclaration) (e : Element) : Prop
  | before : e.span.stop ≤ i.span.start → Clear source i e
  | inside : i.path.stop ≤ e.span.start → e.span.stop ≤ i.span.stop → Clear source i e
  | after {d : Cursor} :
    (Cursor.place source i.span.stop).Skips d → d.offset ≤ e.span.start → Clear source i e

/-- The declarations found in a source, in order and clear of the elements. -/
structure Found.Declared (source : Text) (f : Found) : Prop where
  laid : ∀ i ∈ f.imports, i.Laid source
  ordered : f.imports.Pairwise fun i j => i.span.stop ≤ j.span.start
  clear : ∀ i ∈ f.imports, ∀ e ∈ f.elements, e.Clear source i

namespace Found.Declared

theorem of_imports_eq_nil {source : Text} {f : Found} (h : f.imports = []) :
    f.Declared source := by
  constructor <;> simp [h]

/-- Elements in front of all declarations leave them as they are. -/
theorem behind_elements {source : Text} {f g : Found} {low middle high : Nat}
    (h : g.Declared source) (none : f.imports = []) (betweenF : f.Between low middle)
    (betweenG : g.Between middle high) : (f ++ g).Declared source := by
  constructor
  · simpa [none] using h.laid
  · simpa [none] using h.ordered
  · intro i memberI e member
    replace memberI : i ∈ g.imports := by simpa [none] using memberI
    rcases List.mem_append.1 member with member | member
    · have := betweenF.elements e member
      have := betweenG.imports i memberI
      exact .before (by omega)
    · exact h.clear i memberI e member

end Found.Declared

/-- What a declaration is read as: itself, and the elements in its attributes. -/
theorem Document.Reads.declaration_laid {source : Text} {k c d : Cursor} {f : Found}
    (h : Reads strict (.declaration k) c f d) (on : c.On source)
    (word : c.rest.take (Lexeme.nameLength c.rest) = ("import" : Text))
    (isEnd : k = c.advance (Lexeme.nameLength c.rest)) :
    ∃ i : ImportDeclaration, f.imports = [i] ∧ i.Laid source ∧ i.span.start = c.offset ∧
      i.span.stop = d.offset ∧
      ∀ e ∈ f.elements, i.path.stop ≤ e.span.start ∧ e.span.stop ≤ i.span.stop := by
  cases h with
  | @declaration _ _ q e n clause ofTypes f hk hq hs he found inner means =>
    have six : Lexeme.nameLength c.rest = 6 := by
      have length := congrArg List.length word
      rw [List.length_take, Nat.min_eq_left (Lexeme.nameLength_le _)] at length
      exact length
    rw [six] at word isEnd
    have bounds := Lexeme.stringLength?_bounds hs
    have first := inner.upto.offset_le
    have second := e.skipSemicolon.2.offset_le
    refine ⟨{
        span := c.spanTo e.skipSemicolon.1 he
        gap := k.spanTo q hq
        path := q.spanTo (q.advance n) (upto_advance bounds.2)
        clause
        ofTypes }, ?_, ?_, rfl, rfl, ?_⟩
    · rw [Found.imports_append, inner.imports_eq_nil rfl]
      rfl
    · constructor
      · have rest := congrArg Cursor.rest on
        simp only [Cursor.place] at rest
        simp only [spanTo, isEnd, Cursor.advance, Text.slice, Nat.add_sub_cancel_left, ← rest]
        exact word
      · simp only [spanTo, isEnd, Cursor.advance]
      · rfl
      · simp only [spanTo, Cursor.advance]
        omega
      · simp only [spanTo, Cursor.advance] at first second ⊢
        omega
      · rfl
    · intro b member
      have := inner.between.elements b member
      simp only [spanTo]
      omega

/-- Declarations read in code stand in order and clear of the elements. -/
theorem Document.Reads.declared {source : Text} {nested : Bool} {opened : List Opened}
    {prev : Previous} {c d : Cursor} {f : Found} (h : Reads strict (.code nested opened prev) c f d)
    (on : c.On source) : f.Declared source := by
  generalize part : Part.code nested opened prev = p at h
  induction h generalizing nested opened prev with
  | codeEnd | codeClose => exact .of_imports_eq_nil rfl
  | codeTemplate skips lead inner rest _ ih =>
    obtain ⟨x, t, hr, _⟩ := lead
    have on := (on.upto skips.upto).advance 1
    exact (ih (on.upto inner.upto) rfl).behind_elements (inner.imports_eq_nil rfl) inner.between
      rest.between
  | codeOpen skips _ _ ih | codeShut skips _ _ ih =>
    exact ih ((on.upto skips.upto).advance 1) rfl
  | codeElement skips _ inner rest _ ih =>
    exact (ih ((on.upto skips.upto).upto inner.upto) rfl).behind_elements
      (inner.imports_eq_nil rfl) inner.between rest.between
  | @codeToken _ _ _ _ _ _ _ stop _ skips _ _ _ ih =>
    exact ih ((on.upto skips.upto).upto stop.2.upto) rfl
  | @codeDeclaration _ _ _ c d e k keyword f g skips lead inner rest _ ih =>
    have on := on.upto skips.upto
    obtain ⟨_, _, word, isEnd⟩ := lead.of_declaration
    obtain ⟨i, only, laid, start, stop, inside⟩ := inner.declaration_laid on word isEnd
    have on := on.upto inner.upto
    have declared := ih on rfl
    obtain ⟨m, skips', rest'⟩ := rest.behind_skipped
    have same : Cursor.place source i.span.stop = e := by rw [stop]; exact on.symm
    constructor
    · intro j member
      rcases List.mem_append.1 member with member | member
      · rw [only, List.mem_singleton] at member
        rw [member]
        exact laid
      · exact declared.laid j member
    · rw [Found.imports_append, only]
      refine List.pairwise_cons.2 ⟨fun j member => ?_, declared.ordered⟩
      have := rest.between.imports j member
      omega
    · intro j memberJ b member
      rw [Found.imports_append, only] at memberJ
      rcases List.mem_cons.1 memberJ with rfl | memberJ
      · rcases List.mem_append.1 member with member | member
        · exact .inside (inside b member).1 (inside b member).2
        · exact .after (same ▸ skips') (rest'.between.elements b member).1
      · rcases List.mem_append.1 member with member | member
        · have := inside b member
          have := rest.between.imports j memberJ
          exact .before (by omega)
        · exact declared.clear j memberJ b member
  | _ => cases part

/-! ## The place behind all declarations -/

/-- A line that begins with no blank and is a line comment at most is one. -/
theorem Cursor.line_comment {c : Cursor} {x : CodePoint} {t : Text} (hr : c.rest = x :: t)
    (noBlank : x.isBlank = false)
    (blank : Text.trim (c.rest.takeWhile (!·.is '\n')) = [] ∨
      (Text.trim (c.rest.takeWhile (!·.is '\n'))).startsWith "//" = true) :
    commentLength? c.rest = some (Text.countWhile (!·.is '\n') c.rest) := by
  have inLine : (!x.is '\n') = true := by
    cases isFeed : x.is '\n' with
    | false => rfl
    | true =>
      rw [CodePoint.is_iff.1 isFeed] at noBlank
      exact absurd noBlank (by decide)
  have line : c.rest.takeWhile (!·.is '\n') = x :: t.takeWhile (!·.is '\n') := by
    rw [hr, List.takeWhile_cons, if_pos inLine]
  obtain ⟨nonempty, isBeginning⟩ :=
    Text.trim_of_not_isBlank (t := t.takeWhile (!·.is '\n')) noBlank
  rw [line] at blank
  have opens := blank.resolve_left nonempty
  have opens : c.rest.startsWith "//" = true := by
    refine List.isPrefixOf_iff_prefix.2 ?_
    refine ((List.isPrefixOf_iff_prefix.1 opens).trans isBeginning).trans ?_
    rw [← line]
    exact List.takeWhile_prefix _
  rw [commentLength?, if_pos opens]

/-- The end of a line that holds nothing but blanks, or a line comment behind
them, is not behind the next token. -/
theorem Cursor.Skips.line_le {c d : Cursor} (h : c.Skips d)
    (blank : Text.trim (c.rest.takeWhile (!·.is '\n')) = [] ∨
      (Text.trim (c.rest.takeWhile (!·.is '\n'))).startsWith "//" = true) :
    c.offset + (c.rest.takeWhile (!·.is '\n')).length ≤ d.offset := by
  obtain ⟨upto, h⟩ := h
  fun_induction skipTrivia c with
  | case1 c atEnd =>
    cases h
    simp [atEnd]
  | case2 | case4 | case6 => cases h
  | case3 c x t hr isBlank d hd skips ih =>
    cases h
    rw [hr, List.takeWhile_cons] at blank ⊢
    split at blank
    · rename_i inLine
      rw [Text.trim_cons _ isBlank] at blank
      have := ih (by simpa [advance, hr] using blank) hd skips
      simp only [advance, hr, List.drop_one, List.tail_cons] at this
      rw [if_pos inLine, List.length_cons]
      omega
    · rename_i notInLine
      rw [if_neg notInLine]
      exact upto.offset_le
  | case5 c x t hr noBlank n hn bounds d hd skips =>
    cases h
    have comment := Cursor.line_comment hr (eq_false_of_ne_true noBlank) blank
    rw [hn] at comment
    cases comment
    rw [← Text.countWhile_eq]
    exact hd.offset_le
  | case7 c x t hr noBlank noComment =>
    have comment := Cursor.line_comment hr (eq_false_of_ne_true noBlank) blank
    rw [noComment] at comment
    cases comment

/-! ## Documents as they are read -/

/-- How the declarations and elements of a document lie that is read from its
source. -/
structure Document.Laid (d : Document) : Prop where
  forest : Element.Forest d.elements
  declared : Found.Declared d.source ⟨d.imports, d.elements⟩
  between : Found.Between ⟨d.imports, d.elements⟩ 0 d.source.length
  noPrelude : d.prelude = []

theorem eq_ok_of_toOption {ε α : Type} {x : Except ε α} {a : α} (h : x.toOption = some a) :
    x = .ok a := by
  cases x with
  | error e => cases h
  | ok b => exact congrArg Except.ok (Option.some.inj h)

/-- A result that is evaluated, and what is checked of it. -/
theorem exists_ok_of_decide {ε α : Type} {x : Except ε α} {p : α → Prop} [DecidablePred p]
    (h : (x.toOption.any fun a => decide (p a)) = true) : ∃ a, x = .ok a ∧ p a := by
  obtain ⟨a, isOk, holds⟩ := (Option.any_eq_true _ _).1 h
  exact ⟨a, eq_ok_of_toOption isOk, of_decide_eq_true holds⟩

theorem Document.parse_of_toOption {source : Text} {d : Document}
    (h : (parse source).toOption = some d) : parse source = .ok d :=
  eq_ok_of_toOption h

theorem Document.source_of_parse {source : Text} {d : Document} (h : parse source = .ok d) :
    d.source = source := by
  obtain ⟨_, _, _, rfl⟩ := Reads.of_parse h
  rfl

/-- A document that is read lies properly. -/
theorem Document.laid_of_parse {source : Text} {d : Document} (h : parse source = .ok d) :
    d.Laid := by
  obtain ⟨found, stop, reads, rfl⟩ := Reads.of_parse h
  refine ⟨reads.forest, reads.declared (codeStart_on source), ?_, rfl⟩
  have length := ((codeStart_upto source).trans reads.upto).offset_add_length
  simp only [Cursor.ofSource, Nat.zero_add] at length
  exact reads.between.mono (Nat.zero_le _) (by dsimp only; omega)

namespace Document.Laid

variable {d : Document}

/-- The prelude goes behind every declaration. -/
theorem stop_le_preludePoint (h : d.Laid) {i : ImportDeclaration} (member : i ∈ d.imports) :
    i.span.stop ≤ d.preludePoint := by
  have behindLast : ∀ last, d.imports.getLast? = some last → i.span.stop ≤ last.span.stop := by
    intro last isLast
    obtain ⟨front, eq⟩ := List.getLast?_eq_some_iff.1 isLast
    have ordered := h.declared.ordered
    simp only [eq] at ordered member
    rcases List.mem_append.1 member with inFront | atLast
    · have := (List.pairwise_append.1 ordered).2.2 i inFront last (List.mem_singleton_self last)
      have := last.span.le
      omega
    · rw [List.mem_singleton.1 atLast]
  unfold preludePoint
  split
  · rename_i isEmpty
    rw [List.getLast?_eq_none_iff.1 isEmpty] at member
    cases member
  · rename_i last isLast
    have := behindLast last isLast
    dsimp only
    split <;> omega

/-- The prelude goes into no element. -/
theorem preludePoint_clear (h : d.Laid) {e : Element} (member : e ∈ d.elements) :
    e.span.stop ≤ d.preludePoint ∨ d.preludePoint ≤ e.span.start := by
  unfold preludePoint
  split
  · exact .inr (Nat.zero_le _)
  · rename_i last isLast
    have memberLast := List.mem_of_getLast? isLast
    have := last.span.le
    cases h.declared.clear last memberLast e member with
    | before le =>
      dsimp only
      split <;> omega
    | inside _ le =>
      dsimp only
      split <;> omega
    | @after m skips le =>
      dsimp only
      split
      · rename_i blank
        rw [Bool.or_eq_true, List.isEmpty_iff] at blank
        have := skips.line_le blank
        simp only [Cursor.place] at this
        omega
      · have := skips.upto.offset_le
        simp only [Cursor.place] at this
        omega

theorem preludePoint_le (h : d.Laid) : d.preludePoint ≤ d.source.length := by
  unfold preludePoint
  split
  · exact Nat.zero_le _
  · rename_i last isLast
    have := (h.between.imports last (List.mem_of_getLast? isLast)).2
    dsimp only
    split
    · have := Text.countWhile_le (!·.is '\n') (d.source.drop last.span.stop)
      rw [Text.countWhile_eq, List.length_drop] at this
      omega
    · exact this

end Document.Laid

/-! ## Clauses -/

/-- The text of a declaration up to the end of its path. -/
def ImportDeclaration.text (source : Text) (i : ImportDeclaration) : Text :=
  source.slice i.span.start i.path.stop

/-- The clause of a declaration is what its text is read as. -/
def ImportDeclaration.IsRead (source : Text) (i : ImportDeclaration) : Prop :=
  Cursor.readClause (i.text source) (i.path.text source) i.span.start = .ok (i.clause, i.ofTypes)

theorem ImportDeclaration.IsRead.parse {source : Text} {i : ImportDeclaration}
    (h : i.IsRead source) (noTypes : i.ofTypes = false) :
    ImportClause.parse (i.text source) = .ok i.clause := by
  unfold IsRead Cursor.readClause at h
  split at h
  · have isTypes := congrArg Prod.snd (Except.ok.inj h)
    rw [noTypes] at isTypes
    cases isTypes
  · split at h
    · rename_i clause read
      rw [read]
      exact congrArg Except.ok (congrArg Prod.fst (Except.ok.inj h))
    · cases h
    · cases h

theorem Document.Reads.declaration_isRead {source : Text} {strict : Bool} {k c d : Cursor}
    {f : Found} (h : Reads strict (.declaration k) c f d) (on : c.On source) :
    ∀ i ∈ f.imports, i.IsRead source := by
  cases h with
  | @declaration _ _ q e n clause ofTypes f hk hq hs he found inner means =>
    have onQ := on.upto (hk.upto.trans hq)
    have whole : c.rest = source.drop c.offset := congrArg Cursor.rest on
    have behind : q.rest = source.drop q.offset := congrArg Cursor.rest onQ
    intro i member
    rw [Found.imports_append, inner.imports_eq_nil rfl] at member
    rw [List.mem_singleton.1 member]
    simp only [ImportDeclaration.IsRead, ImportDeclaration.text, Span.text, spanTo, advance,
      Text.slice, Nat.add_sub_cancel_left, ← whole, ← behind]
    exact means

/-- What holds of the declarations that are read as such holds of all in code. -/
theorem Document.Reads.forall_imports {source : Text} {strict nested : Bool}
    {p : ImportDeclaration → Prop}
    (each : ∀ {k c d : Cursor} {f : Found}, Reads strict (.declaration k) c f d → c.On source →
      ∀ i ∈ f.imports, p i)
    {opened : List Opened} {prev : Previous} {c d : Cursor} {f : Found}
    (h : Reads strict (.code nested opened prev) c f d) (on : c.On source) :
    ∀ i ∈ f.imports, p i := by
  generalize part : Part.code nested opened prev = q at h
  induction h generalizing nested opened prev with
  | codeEnd | codeClose => exact nofun
  | codeTemplate skips lead inner rest _ ih =>
    obtain ⟨x, t, hr, _⟩ := lead
    rw [Found.imports_append, inner.imports_eq_nil rfl]
    exact ih (((on.upto skips.upto).advance 1).upto inner.upto) rfl
  | codeOpen skips _ _ ih | codeShut skips _ _ ih =>
    exact ih ((on.upto skips.upto).advance 1) rfl
  | codeElement skips _ inner rest _ ih =>
    rw [Found.imports_append, inner.imports_eq_nil rfl]
    exact ih ((on.upto skips.upto).upto inner.upto) rfl
  | @codeToken _ _ _ _ _ _ _ stop _ skips _ _ _ ih =>
    exact ih ((on.upto skips.upto).upto stop.2.upto) rfl
  | codeDeclaration skips _ inner _ _ ih =>
    have on := on.upto skips.upto
    intro i member
    rcases List.mem_append.1 member with member | member
    · exact each inner on i member
    · exact ih (on.upto inner.upto) rfl i member
  | _ => cases part

/-- The clauses of the declarations of a document are read from their texts. -/
theorem Document.isRead_of_parse {source : Text} {d : Document} (h : parse source = .ok d) :
    ∀ i ∈ d.imports, i.IsRead source := by
  obtain ⟨found, stop, reads, rfl⟩ := Reads.of_parse h
  exact reads.forall_imports (fun inner on => inner.declaration_isRead on) (codeStart_on source)

end StyleBinding
