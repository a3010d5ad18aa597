import StyleBinding.Proofs.Expression.Atoms
import StyleBinding.Proofs.Import.Ending
import StyleBinding.Proofs.Reading.Placement
import StyleBinding.Proofs.Reading.Stack

/-!
# Scripts and expressions side by side

The code of an attribute is read twice: as a stretch of the script, with a stack of
brackets, and as the text of an expression, cut into tokens. Where the text is
plain, both close the same brackets at the same places: `Scan.Moves.closing?_eq`
follows one token of the script, which is a token of the expression or a part of
one, and `Scan.closing?_eq_of_moves` a run of them.
-/

namespace StyleBinding

open Cursor

variable {source : Text} {s : Span} {c d : Cursor}

/-! ## The text of a span -/

namespace Cursor

theorem On.inside (on : c.On source) (le : s.start ≤ c.offset) :
    (c.inside s).On (s.text source) := by
  have rest := congrArg Cursor.rest on
  simp only [place] at rest
  have behind : s.stop - s.start - (c.offset - s.start) = s.stop - c.offset := by omega
  have start : s.start + (c.offset - s.start) = c.offset := by omega
  simp only [On, Cursor.inside, place, Span.text, Text.slice, rest, List.drop_take, List.drop_drop,
    behind, start]

theorem inside_rest {x : CodePoint} {t : Text} (hr : c.rest = x :: t) (lt : c.offset < s.stop) :
    (c.inside s).rest = x :: t.take (s.stop - c.offset - 1) := by
  obtain ⟨m, hm⟩ : ∃ m, s.stop - c.offset = m + 1 := ⟨s.stop - c.offset - 1, by omega⟩
  rw [inside, hr, hm]
  rfl

theorem inside_rest_of_le (le : s.stop ≤ c.offset) : (c.inside s).rest = [] := by
  rw [inside, Nat.sub_eq_zero_of_le le]
  rfl

/-- Blanks and comments that end in a span are skipped in its text as well, where no
blank stands that does not separate. -/
theorem Skips.inside (skips : c.Skips d) (above : s.start ≤ c.offset) (below : d.offset ≤ s.stop)
    (stops : ∀ x t, (c.inside s).skipSeparators.1.rest = x :: t → x.isBlank = false) :
    (c.inside s).skipSeparators.1 = d.inside s := by
  obtain ⟨upto, skips⟩ := skips
  fun_induction skipTrivia c with
  | case1 c atEnd =>
    cases skips
    exact skipSeparators_of_nil (by rw [Cursor.inside, atEnd, List.take_nil])
  | case2 | case4 | case6 => cases skips
  | case3 c x t hr blank d hd ends ih =>
    cases skips
    have behind := hd.offset_le
    have rest := inside_rest (s := s) hr (by simp only [advance] at behind; omega)
    by_cases separates : isSeparator x = true
    · have skip := skipSeparators_of_separator rest separates
      rw [inside_advance above] at skip
      rw [skip] at stops ⊢
      exact ih (Nat.le_succ_of_le above) stops hd ends
    · have noComment : commentLength? (c.inside s).rest = none := by
        by_contra isComment
        obtain ⟨n, hn⟩ := Option.ne_none_iff_exists'.1 isComment
        obtain ⟨u, hu⟩ := commentLength?_head hn
        rw [rest] at hu
        cases hu
        exact absurd blank (by decide)
      have stays := skipSeparators_of_cons rest (eq_false_of_ne_true separates) noComment
      rw [stops x _ (stays ▸ rest)] at blank
      cases blank
  | case5 c x t hr noBlank n hn bounds d hd ends ih =>
    cases skips
    have behind := hd.offset_le
    simp only [advance] at behind
    have isComment := commentLength?_take (m := s.stop - c.offset) hn (by omega)
    have skip := skipSeparators_of_comment (c := c.inside s) isComment
    rw [inside_advance above] at skip
    rw [skip] at stops ⊢
    exact ih (Nat.le_add_right_of_le above) stops hd ends
  | case7 c x t hr noBlank noComment =>
    cases skips
    rcases Nat.lt_or_ge d.offset s.stop with lt | ge
    · refine skipSeparators_of_cons (inside_rest hr lt) ?_ (commentLength?_take_eq_none noComment)
      by_contra separates
      exact noBlank (CodePoint.isBlank_of_isSeparator (Bool.not_eq_false _ ▸ separates))
    · exact skipSeparators_of_nil (inside_rest_of_le ge)

theorem skipSeparators_again (c : Cursor) :
    c.skipSeparators.1.skipSeparators.1 = c.skipSeparators.1 := by
  fun_induction skipSeparators c with
  | case1 c atEnd => exact skipSeparators_of_nil atEnd
  | case2 c x t hr separates d hd skip ih =>
    rw [skip] at ih
    exact ih
  | case3 c x t hr noSeparator n hn bounds d hd skip ih =>
    rw [skip] at ih
    exact ih
  | case4 c x t hr noSeparator noComment =>
    exact skipSeparators_of_cons hr (eq_false_of_ne_true noSeparator) noComment

end Cursor

namespace Shape

/-- What is read behind separators is what is read where they end. -/
theorem tokens?_congr {c d : Cursor} (hc : c.skipSeparators.1 = d) (hd : d.skipSeparators.1 = d) :
    tokens? c = tokens? d := by
  cases hr : d.rest with
  | nil => rw [tokens?_of_end hc hr, tokens?_of_end hd hr]
  | cons x t => rw [tokens?_of_cons hc hr, tokens?_of_cons hd hr]

/-- A place where a plain text has neither separators nor comments any more. -/
theorem arePlain_skipped {text : Text} {c d : Cursor} (plain : arePlain text c = true)
    (hc : c.skipSeparators.1 = d) {x : CodePoint} {t : Text} (hr : d.rest = x :: t) :
    x.isBlank = false := by
  obtain ⟨n, token, first, _⟩ := of_arePlain plain hc hr
  exact not_isBlank_of_firstToken? first

end Shape

namespace Document

open Shape

/-! ## Templates -/

theorem offsetOf?_tail {pattern : Text} {x : CodePoint} {t : Text}
    (absent : Text.offsetOf? pattern (x :: t) = none) : Text.offsetOf? pattern t = none := by
  rw [Text.offsetOf?] at absent
  split at absent
  · cases absent
  · exact Option.map_eq_none_iff.1 absent

theorem templateTail?_mark (t : Text) : templateTail? (.scalar '\x60' :: t) = some 1 := by
  rw [templateTail?.eq_def]
  rfl

theorem templateTail?_of_ne {x : CodePoint} {t : Text} (noMark : x.is '\x60' = false)
    (noEscape : x.is '\\' = false) : templateTail? (x :: t) = (templateTail? t).map (· + 1) := by
  rw [templateTail?.eq_def]
  dsimp only
  rw [noMark, noEscape, if_neg Bool.false_ne_true, if_neg Bool.false_ne_true]

/-- A template without code in it ends at its first mark that no backslash escapes. -/
theorem Reads.template_stop {strict : Bool} {e : Cursor} {f : Found} {m n : Nat}
    (h : Reads strict .template c f e) (tail : templateTail? (c.rest.take m) = some n)
    (noCode : Text.offsetOf? "$\x7b" ((c.rest.take m).take n) = none) : e = c.advance n := by
  generalize part : Part.template = p at h
  induction h generalizing m n with
  | templateEnd hr =>
    obtain _ | m := m
    · cases tail
    rw [hr, List.take_succ_cons, templateTail?_mark] at tail
    obtain rfl := Option.some.inj tail
    rfl
  | @templateEscape c d x t g hr _ ih =>
    have behind : (c.advance 2).rest = t := by rw [advance, hr]; rfl
    obtain _ | _ | m := m
    · cases tail
    · rw [hr] at tail
      cases tail
    rw [hr, List.take_succ_cons, List.take_succ_cons] at tail noCode
    obtain ⟨k, tail', rfl⟩ := Option.map_eq_some_iff.1 (tail : (templateTail? (t.take m)).map _ = _)
    rw [← behind] at tail' noCode
    rw [ih tail' (offsetOf?_tail (offsetOf?_tail noCode)) rfl, advance_advance, Nat.add_comm]
  | @templateBlock c d e t f g hr block _ ihf ihg =>
    obtain _ | _ | m := m
    · cases tail
    · rw [hr] at tail
      cases tail
    rw [hr, List.take_succ_cons, List.take_succ_cons] at tail noCode
    -- The code begins with the two code points at the head, and the template goes on behind.
    rw [templateTail?_of_ne (by decide) (by decide), templateTail?_of_ne (by decide) (by decide)]
      at tail
    obtain ⟨j, tail', rfl⟩ := Option.map_eq_some_iff.1 tail
    obtain ⟨k, _, rfl⟩ := Option.map_eq_some_iff.1 tail'
    cases noCode
  | @templatePoint c d x t g hr noEscape noEnd _ _ ih =>
    have behind : (c.advance 1).rest = t := by rw [advance, hr]; rfl
    obtain _ | m := m
    · cases tail
    rw [hr, List.take_succ_cons] at tail noCode
    rw [templateTail?_of_ne noEnd noEscape, ← behind] at tail
    obtain ⟨k, tail', rfl⟩ := Option.map_eq_some_iff.1 tail
    rw [← behind] at noCode
    rw [ih tail' (offsetOf?_tail noCode) rfl, advance_advance, Nat.add_comm]
  | _ => cases part

/-! ## Tokens -/

section

variable {prev prev' : Previous} {n : Nat} {x : CodePoint} {t : Text}

/-- Behind an ordinary token of a script a plain text is plain as well, and has the
same brackets. -/
theorem arePlain_of_lexed (lexed : Lead.Lexed false prev d n prev') (hr : d.rest = x :: t)
    (pos : 0 < n) (le : n ≤ d.rest.length) (on : d.On source) (above : s.start ≤ d.offset)
    (below : d.offset + n ≤ s.stop) (skipped : (d.inside s).skipSeparators.1 = d.inside s)
    (plain : arePlain (s.text source) (d.inside s) = true) :
    arePlain (s.text source) ((d.advance n).inside s) = true ∧
      ∀ opened, closingFrom? opened (d.inside s) =
        closingFrom? opened ((d.advance n).inside s) := by
  have on' := on.inside above
  have rest := inside_rest (s := s) hr (by omega)
  obtain ⟨m, token, first, _, behind, tokens⟩ := of_arePlain plain skipped rest
  have noBlank := not_isBlank_of_firstToken? first
  have noRegex : Lexeme.regexLength? d.rest ≠ some n := by
    intro isRegex
    rw [hr] at isRegex
    have slash := isMarkedBySlash_of_regex (m := s.stop - d.offset - 1) isRegex (by omega)
    exact Bool.noConfusion (slash.symm.trans (marks_of_arePlain plain on' skipped rest).1)
  rw [inside_advance above] at behind tokens
  rcases hasRun_of_lexed lexed hr noBlank noRegex with isString | ⟨rfl, rfl⟩ | ⟨_, atoms⟩
  · have isString' : Lexeme.stringLength? (d.inside s).rest = some n :=
      Lexeme.stringLength?_take isString (by omega)
    rw [rest] at isString'
    obtain ⟨shape, same⟩ := firstToken?_string isString' first
    cases same
    exact ⟨behind, fun opened => closingFrom?_eq tokens opened⟩
  · cases first
    exact ⟨behind, fun opened => closingFrom?_eq tokens opened⟩
  · have inside : (d.inside s).rest.take n = d.rest.take n := by
      rw [Cursor.inside, List.take_take, Nat.min_eq_left (by omega)]
    have cut := arePlain_advance plain on' skipped pos ?_ ?_
    · rwa [inside_advance above] at cut
    · rw [Cursor.inside, List.length_take]
      exact Nat.le_min.2 ⟨by omega, le⟩
    · rw [inside]
      exact atoms

/-- Behind a template of a script a plain text is plain as well, and has the same
brackets. -/
theorem arePlain_of_template {strict : Bool} {e : Cursor} {f : Found}
    (h : Reads strict .template (d.advance 1) f e) (hr : d.rest = .scalar '\x60' :: t)
    (above : s.start ≤ d.offset) (below : e.offset ≤ s.stop)
    (skipped : (d.inside s).skipSeparators.1 = d.inside s)
    (plain : arePlain (s.text source) (d.inside s) = true) :
    arePlain (s.text source) (e.inside s) = true ∧
      ∀ opened, closingFrom? opened (d.inside s) = closingFrom? opened (e.inside s) := by
  have start := h.upto.offset_le
  simp only [advance] at start
  have rest := inside_rest (s := s) hr (by omega)
  obtain ⟨m, token, first, isPlain, behind, tokens⟩ := of_arePlain plain skipped rest
  obtain ⟨n, kind, tail, isKind, same⟩ := firstToken?_template first
  cases same
  have noCode : Text.offsetOf? "$\x7b"
      (.scalar '\x60' :: (t.take (s.stop - d.offset - 1)).take n) = none := by
    by_contra isCode
    rw [templateKind?, if_pos (Option.isSome_iff_ne_none.2 isCode)] at isKind
    cases isKind
    cases isPlain
  have same : t = (d.advance 1).rest := by
    rw [advance, hr]
    rfl
  rw [same] at tail noCode
  obtain rfl := h.template_stop tail (offsetOf?_tail noCode)
  rw [advance_advance, Nat.add_comm 1]
  rw [inside_advance above] at behind tokens
  exact ⟨behind, fun opened => closingFrom?_eq tokens opened⟩

/-- Behind a mark of a script that is a token of the expression too, a plain text is
plain as well, and the mark stands in front of what closes the brackets there. -/
theorem arePlain_of_mark {token : Token} (hr : d.rest = x :: t)
    (first : ∀ u, firstToken? (d.inside s).offset x u = some (1, token))
    (above : s.start ≤ d.offset) (below : d.offset < s.stop)
    (skipped : (d.inside s).skipSeparators.1 = d.inside s)
    (plain : arePlain (s.text source) (d.inside s) = true) :
    arePlain (s.text source) ((d.advance 1).inside s) = true ∧
      ∀ opened, closingFrom? opened (d.inside s) =
        (tokens? ((d.advance 1).inside s)).bind fun rest =>
          Shape.closing? opened (token :: rest) := by
  obtain ⟨n, token', isFirst, _, behind, tokens⟩ := of_arePlain plain skipped (inside_rest hr below)
  cases (first _).symm.trans isFirst
  rw [inside_advance above] at behind tokens
  exact ⟨behind, closingFrom?_eq tokens⟩

/-- No element of a script stands in a text that is plain. -/
theorem not_arePlain_of_element {e : Cursor} {f : Found} (h : Reads false .element d f e)
    (hr : d.rest = .scalar '<' :: t)
    (starts : Lead.startsElement t = true) (on : d.On source) (above : s.start ≤ d.offset)
    (below : e.offset ≤ s.stop) (skipped : (d.inside s).skipSeparators.1 = d.inside s) :
    ¬ arePlain (s.text source) (d.inside s) = true := by
  intro plain
  obtain _ | ⟨y, u⟩ := t
  · cases starts
  -- The element ends behind another code point, so both of its first two lie in the span.
  have two : d.offset + 1 < s.stop := by
    have lt := h.accepts.1.offset_lt
    by_contra reaches
    have same : e.offset - 1 = d.offset + 0 := by omega
    have last := (h.stop_mark on rfl).2
    rw [same, on.getElem? 0, hr] at last
    cases last
  have rest := inside_rest (s := s) hr (by omega)
  obtain ⟨k, hk⟩ : ∃ k, s.stop - d.offset - 1 = k + 1 := ⟨s.stop - d.offset - 2, by omega⟩
  rw [hk, List.take_succ_cons] at rest
  have stays := (marks_of_arePlain plain (on.inside above) skipped rest).2
  exact Bool.noConfusion (starts.symm.trans (stays : Lead.startsElement (y :: u) = false))

end

/-! ## Steps -/

namespace Scan

/-- Where the bracket starts that closes the last of those that are open, as the
tokens of the expression have it that is the text of a span. If none is open, the
bracket is the token before, and nothing may follow. -/
def closing? (s : Span) (a : Scan) : Option Nat :=
  if a.opened.isEmpty then
    (tokens? (a.place.inside s)).bind fun tokens =>
      if tokens.isEmpty then some (a.place.offset - 1 - s.start) else none
  else closingFrom? (a.opened.map (·.bracket)) (a.place.inside s)

/-- A state in the text of a span that is plain from there on. -/
structure Inside (source : Text) (s : Span) (a : Scan) : Prop where
  on : a.place.On source
  above : s.start ≤ a.place.offset
  plain : arePlain (s.text source) (a.place.inside s) = true

variable {a b z : Scan}

theorem closing?_of_ne_nil (nonempty : a.opened ≠ []) :
    a.closing? s = closingFrom? (a.opened.map (·.bracket)) (a.place.inside s) := by
  rw [closing?, if_neg]
  rwa [List.isEmpty_iff]

/-- A step with brackets open stays in plain text, and closes what it closes there. -/
theorem Moves.closing?_eq (h : Moves a b) (inside : a.Inside source s)
    (below : b.place.offset ≤ s.stop) : b.Inside source s ∧ a.closing? s = b.closing? s := by
  obtain ⟨opened, prev, c⟩ := a
  obtain ⟨nonempty, d, lead, skips, isLead, behind⟩ := h
  obtain ⟨on, above, plain⟩ := inside
  have past := behind.past isLead
  have onD := on.upto skips.upto
  have aboveD := Nat.le_trans above skips.upto.offset_le
  have lt := past.offset_lt
  have skipped : (c.inside s).skipSeparators.1 = d.inside s :=
    skips.inside above (by omega) fun x t => arePlain_skipped plain rfl
  have again : (d.inside s).skipSeparators.1 = d.inside s := by
    rw [← skipped, skipSeparators_again]
  have tokens := tokens?_congr skipped again
  have plainD : arePlain (s.text source) (d.inside s) = true := by rwa [arePlain, ← tokens]
  suffices result : arePlain (s.text source) (b.place.inside s) = true ∧
      closingFrom? (opened.map (·.bracket)) (d.inside s) = b.closing? s by
    refine ⟨⟨onD.upto past.upto, Nat.le_trans aboveD past.upto.offset_le, result.1⟩, ?_⟩
    rw [← result.2, closing?_of_ne_nil nonempty, closingFrom?, tokens]
    rfl
  have begins := isLead.begins
  cases behind with
  | @template _ _ e _ inner =>
    cases begins with
    | template hr =>
      obtain ⟨plainB, same⟩ := arePlain_of_template inner hr aboveD below again plainD
      refine ⟨plainB, ?_⟩
      rw [same, closing?_of_ne_nil (a := ⟨opened, .value, e⟩) nonempty]
  | @token _ _ prev' stop =>
    cases begins with
    | @token n _ _ isStop lexed =>
      obtain ⟨x, t, hr, _⟩ := isLead
      have length := stop.2.upto.offset_add_length
      simp only [isStop, advance, List.length_drop] at lt below length
      obtain ⟨plainB, same⟩ :=
        arePlain_of_lexed lexed hr (by omega) (by omega) onD aboveD below again plainD
      rw [← isStop] at plainB same
      refine ⟨plainB, ?_⟩
      rw [same, closing?_of_ne_nil (a := ⟨opened, prev', stop.1⟩) nonempty]
  | opener =>
    cases begins with
    | opener hr =>
      obtain ⟨plainB, same⟩ := arePlain_of_mark hr (fun u => firstToken?_opener _ _ u)
        aboveD (by omega) again plainD
      exact ⟨plainB, same _⟩
  | @closer opened o _ =>
    cases begins with
    | closer hr =>
      obtain ⟨plainB, same⟩ := arePlain_of_mark hr (fun u => firstToken?_closer _ _ u)
        aboveD (by omega) again plainD
      refine ⟨plainB, (same _).trans ?_⟩
      cases opened with
      | nil => simp [Shape.closing?, closing?, spanFrom, Cursor.inside, advance]
      | cons p opened => simp [Shape.closing?, closing?, closingFrom?]
  | element inner =>
    cases begins with
    | element hr _ starts =>
      exact absurd plainD (not_arePlain_of_element inner hr starts onD aboveD below again)

/-- So does a run of steps. -/
theorem closing?_eq_of_moves (run : Relation.ReflTransGen Moves a z) (inside : a.Inside source s)
    (below : z.place.offset ≤ s.stop) : z.Inside source s ∧ a.closing? s = z.closing? s := by
  induction run with
  | refl => exact ⟨inside, rfl⟩
  | tail _ step ih =>
    obtain ⟨insideB, same⟩ := ih (Nat.le_trans step.2.upto.offset_le below)
    obtain ⟨insideZ, same'⟩ := step.closing?_eq insideB below
    exact ⟨insideZ, same.trans same'⟩

/-- Where no bracket is open, the last was the last token if and only if blanks and
comments reach the end of the span. -/
theorem closing?_eq_some_iff {k l : Cursor} {m : Nat} (closed : z.opened = [])
    (inside : z.Inside source s) (skips : z.place.Skips k) (upto : k.Upto l)
    (atEnd : l.offset = s.stop) :
    z.closing? s = some m ↔ k = l ∧ z.place.offset - 1 - s.start = m := by
  have le := upto.offset_le
  have skipped : (z.place.inside s).skipSeparators.1 = k.inside s :=
    skips.inside inside.above (by omega) fun x t => arePlain_skipped inside.plain rfl
  rw [closing?, closed, List.isEmpty_nil, if_pos rfl]
  rcases Nat.eq_or_lt_of_le le with same | lt
  · obtain ⟨n, _, rfl⟩ := upto
    obtain rfl : n = 0 := Nat.add_eq_left.1 same.symm
    rw [tokens?_of_end skipped (inside_rest_of_le (by omega)), advance_zero]
    simp
  · have length := upto.offset_add_length
    obtain ⟨x, t, hr⟩ := List.exists_cons_of_length_pos (l := k.rest) (by omega)
    obtain ⟨n, token, _, _, _, tokens⟩ :=
      of_arePlain inside.plain skipped (inside_rest hr (by omega))
    have apart : k ≠ l := by
      rintro rfl
      exact Nat.lt_irrefl _ lt
    rw [tokens, Option.bind_map]
    cases tokens? ((k.inside s).advance n) <;> simp [apart]

end Scan

end Document

end StyleBinding
