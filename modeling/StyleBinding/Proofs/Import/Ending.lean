import StyleBinding.Proofs.Import.Grammar
import StyleBinding.Proofs.Source.Separators

/-!
# Where a declaration ends

A declaration is read from left to right, so one that ends at a place is read in
the same way when its text ends there: what follows is only looked at by `finish`.
A token that is absent is absent in the shorter text as well, and one that is
there stands in front of its end.
-/

namespace StyleBinding

open Cursor

namespace Lexeme

theorem nameLength_take {t : Text} {n : Nat} (le : nameLength t ≤ n) :
    nameLength (t.take n) = nameLength t := by
  obtain _ | ⟨x, t⟩ := t
  · rw [List.take_nil]
  obtain _ | n := n
  · rw [Nat.le_zero.1 le]
    rfl
  rw [List.take_succ_cons, nameLength_eq_ite, nameLength_eq_ite]
  rw [nameLength_eq_ite] at le
  rw [List.head?_cons, List.head?_cons]
  split
  · rfl
  · rename_i noDigit
    rw [List.head?_cons, if_neg noDigit] at le
    have := Text.countWhile_append (p := (·.isName)) (u := (x :: t).take (n + 1))
      (v := (x :: t).drop (n + 1)) (w := [])
      (by
        rw [List.take_append_drop, List.length_take]
        exact Nat.le_min.2 ⟨le, Text.countWhile_le ..⟩)
      (fun _ => rfl)
    rwa [List.append_nil, List.take_append_drop, List.take_succ_cons] at this

theorem nameLength_take_eq_zero {t : Text} {n : Nat} (none : nameLength t = 0) :
    nameLength (t.take n) = 0 := by
  rw [nameLength_take (none ▸ Nat.zero_le n), none]

theorem stringLength?_take {t : Text} {n m : Nat} (h : stringLength? t = some n) (le : n ≤ m) :
    stringLength? (t.take m) = some n := by
  have bounds := stringLength?_bounds h
  have := stringLength?_eq (u := t.take m) (v := t.drop m) (w := []) (n := n)
    (by rwa [List.take_append_drop]) (by rw [List.length_take]; omega)
  rwa [List.append_nil] at this

theorem stringLength?_take_eq_none {t : Text} {m : Nat} (h : stringLength? t = none) :
    stringLength? (t.take m) = none := by
  by_contra isString
  obtain ⟨n, hn⟩ := Option.ne_none_iff_exists'.1 isString
  have := stringLength?_eq (u := t.take m) (v := []) (w := t.drop m) (n := n)
    (by rwa [List.append_nil]) (stringLength?_bounds hn).2
  rw [List.take_append_drop, h] at this
  cases this

end Lexeme

theorem Text.startsWith_take {t : Text} {s : String} {n : Nat} (h : t.startsWith s = true)
    (le : s.toList.length ≤ n) : Text.startsWith (t.take n) s = true := by
  refine List.isPrefixOf_iff_prefix.2
    (List.prefix_take_iff.2 ⟨List.isPrefixOf_iff_prefix.1 h, ?_⟩)
  rwa [Text.ofString, List.length_map]

theorem Text.startsWith_take_eq_false {t : Text} {s : String} {n : Nat}
    (h : t.startsWith s = false) : Text.startsWith (t.take n) s = false := by
  by_contra starts
  have := (List.isPrefixOf_iff_prefix.1 (Bool.not_eq_false _ ▸ starts)).trans (List.take_prefix n t)
  rw [Text.startsWith, List.isPrefixOf_iff_prefix.2 this] at h
  cases h

namespace ImportClause

/-! ## Tokens -/

/-- A gap in the text that ends at an offset. -/
def Gap.cut (stop : Nat) (g : Gap) : Gap := ⟨g.cursor.inside (.upTo stop), g.lastToken⟩

namespace Gap

variable {g h : Gap} {stop : Nat} {word : String} {t : Text}

theorem next_cut (lt : g.next.offset < stop) : (g.cut stop).next = g.next.inside (.upTo stop) :=
  skipSeparators_inside (Nat.zero_le _) lt

theorem next_cut_rest (lt : g.next.offset < stop) :
    (g.cut stop).next.rest = g.next.rest.take (stop - g.next.offset) := by
  rw [next_cut lt]
  rfl

theorem behind_cut (lt : g.next.offset < stop) (n : Nat) :
    (g.cut stop).behind n = (g.behind n).cut stop := by
  rw [behind, next_cut lt, inside_advance (Nat.zero_le _)]
  rfl

theorem literal?_cut (e : g.literal? word = some h) (pos : 0 < word.toList.length)
    (le : h.cursor.offset ≤ stop) : (g.cut stop).literal? word = some (h.cut stop) := by
  obtain ⟨here, rfl⟩ := literal?_eq_some_iff.1 e
  simp only [behind, advance] at le
  refine literal?_eq_some_iff.2 ⟨?_, (behind_cut (by omega) _).symm⟩
  rw [next_cut_rest (by omega)]
  exact Text.startsWith_take here (by omega)

theorem literal?_cut_eq_none (e : g.literal? word = none) (lt : g.next.offset < stop) :
    (g.cut stop).literal? word = none := by
  rw [literal?_eq_none_iff, next_cut_rest lt]
  exact Text.startsWith_take_eq_false (literal?_eq_none_iff.1 e)

theorem name?_cut (e : g.name? = some (t, h)) (le : h.cursor.offset ≤ stop) :
    (g.cut stop).name? = some (t, h.cut stop) := by
  obtain ⟨pos, rfl, rfl⟩ := name?_eq_some_iff.1 e
  simp only [behind, advance] at le
  refine name?_eq_some_iff.2 ?_
  rw [next_cut_rest (by omega), Lexeme.nameLength_take (by omega)]
  refine ⟨pos, ?_, (behind_cut (by omega) _).symm⟩
  rw [List.take_take, Nat.min_eq_left (by omega)]

theorem name?_cut_eq_none (e : g.name? = none) (lt : g.next.offset < stop) :
    (g.cut stop).name? = none := by
  rw [name?_eq_none_iff, next_cut_rest lt]
  exact Lexeme.nameLength_take_eq_zero (name?_eq_none_iff.1 e)

theorem string?_cut (e : g.string? = some (t, h)) (le : h.cursor.offset ≤ stop) :
    (g.cut stop).string? = some (t, h.cut stop) := by
  obtain ⟨n, isString, rfl, rfl⟩ := string?_eq_some_iff.1 e
  simp only [behind, advance] at le
  have pos := (Lexeme.stringLength?_bounds isString).1
  refine string?_eq_some_iff.2 ⟨n, ?_, ?_, (behind_cut (by omega) _).symm⟩
  · rw [next_cut_rest (by omega)]
    exact Lexeme.stringLength?_take isString (by omega)
  · rw [next_cut_rest (by omega), List.take_take, Nat.min_eq_left (by omega)]

theorem string?_cut_eq_none (e : g.string? = none) (lt : g.next.offset < stop) :
    (g.cut stop).string? = none := by
  rw [string?_eq_none_iff, next_cut_rest lt]
  exact Lexeme.stringLength?_take_eq_none (string?_eq_none_iff.1 e)

/-- A token is read behind its gap. -/
theorem next_lt_of_literal? (e : g.literal? word = some h) (pos : 0 < word.toList.length) :
    g.next.offset < h.cursor.offset := by
  obtain ⟨_, rfl⟩ := literal?_eq_some_iff.1 e
  simp only [behind, advance]
  omega

theorem next_lt_of_name? (e : g.name? = some (t, h)) : g.next.offset < h.cursor.offset := by
  obtain ⟨pos, _, rfl⟩ := name?_eq_some_iff.1 e
  simp only [behind, advance]
  omega

theorem next_lt_of_string? (e : g.string? = some (t, h)) : g.next.offset < h.cursor.offset := by
  obtain ⟨n, isString, _, rfl⟩ := string?_eq_some_iff.1 e
  have := Lexeme.stringLength?_bounds isString
  simp only [behind, advance]
  omega

end Gap

theorem next_lt_of_exportName? {g h : Gap} {name : ExportName}
    (e : exportName? g = some (name, h)) : g.next.offset < h.cursor.offset := by
  rcases exportName?_eq_some_iff.1 e with ⟨t, isName, _⟩ | ⟨_, raw, isString, _⟩
  · exact Gap.next_lt_of_name? isName
  · exact Gap.next_lt_of_string? isString

theorem exportName?_cut {g h : Gap} {name : ExportName} {stop : Nat}
    (e : exportName? g = some (name, h)) (le : h.cursor.offset ≤ stop) :
    exportName? (g.cut stop) = some (name, h.cut stop) := by
  have lt := next_lt_of_exportName? e
  refine exportName?_eq_some_iff.2 ?_
  rcases exportName?_eq_some_iff.1 e with ⟨t, isName, same⟩ | ⟨noName, raw, isString, same⟩
  · exact .inl ⟨t, Gap.name?_cut isName le, same⟩
  · exact .inr ⟨Gap.name?_cut_eq_none noName (by omega), raw, Gap.string?_cut isString le, same⟩

/-! ## Clauses -/

variable {g h : Gap} {stop : Nat}

theorem Renames.cut {bound : Option Text} (renames : Renames g bound h)
    (lt : h.next.offset < stop) : Renames (g.cut stop) bound (h.cut stop) := by
  cases renames with
  | kept noKeyword => exact .kept (Gap.literal?_cut_eq_none noKeyword lt)
  | @renamed k _ name isKeyword isName =>
    have first := (k.next_upto.trans (Gap.upto_of_name? isName)).offset_le
    have second := h.next_upto.offset_le
    exact .renamed (Gap.literal?_cut isKeyword (by decide) (by omega))
      (Gap.name?_cut isName (by omega))

theorem Lists.cut {named : List (ExportName × Option Text)} (lists : Lists g named h)
    (le : h.cursor.offset ≤ stop) : Lists (g.cut stop) named (h.cut stop) := by
  induction lists with
  | close isClose => exact .close (Gap.literal?_cut isClose (by decide) le)
  | @last g h k l name bound isOpen isName renames noComma isClose =>
    have third := Gap.next_lt_of_literal? isClose (by decide)
    have second := (renames.upto.trans k.next_upto).offset_le
    have first := next_lt_of_exportName? isName
    exact .last (Gap.literal?_cut_eq_none isOpen (by omega)) (exportName?_cut isName (by omega))
      (renames.cut (by omega)) (Gap.literal?_cut_eq_none noComma (by omega))
      (Gap.literal?_cut isClose (by decide) le)
  | @more g h k l m name bound rest isOpen isName renames isComma lists ih =>
    have fourth := lists.upto.offset_le
    have third := Gap.next_lt_of_literal? isComma (by decide)
    have second := (renames.upto.trans k.next_upto).offset_le
    have first := next_lt_of_exportName? isName
    exact .more (Gap.literal?_cut_eq_none isOpen (by omega)) (exportName?_cut isName (by omega))
      (renames.cut (by omega)) (Gap.literal?_cut isComma (by decide) (by omega)) (ih le)

theorem Groups.cut {w : Written} (groups : Groups g w h) (le : h.cursor.offset ≤ stop) :
    Groups (g.cut stop) w (h.cut stop) := by
  cases groups with
  | @all k l _ name isStar isKeyword isName =>
    have second := (l.next_upto.trans (Gap.upto_of_name? isName)).offset_le
    have first := (k.next_upto.trans (Gap.upto_of_literal? isKeyword)).offset_le
    exact .all (Gap.literal?_cut isStar (by decide) (by omega))
      (Gap.literal?_cut isKeyword (by decide) (by omega)) (Gap.name?_cut isName le)
  | named noStar isOpen lists =>
    have second := lists.upto.offset_le
    have first := Gap.next_lt_of_literal? isOpen (by decide)
    exact .named (Gap.literal?_cut_eq_none noStar (by omega))
      (Gap.literal?_cut isOpen (by decide) (by omega)) (lists.cut le)

theorem Groups.next_lt {w : Written} (groups : Groups g w h) :
    g.next.offset < h.cursor.offset := by
  cases groups with
  | @all k l _ name isStar isKeyword isName =>
    have third := (l.next_upto.trans (Gap.upto_of_name? isName)).offset_le
    have second := (k.next_upto.trans (Gap.upto_of_literal? isKeyword)).offset_le
    have first := Gap.next_lt_of_literal? isStar (by decide)
    omega
  | named _ isOpen lists =>
    have second := lists.upto.offset_le
    have first := Gap.next_lt_of_literal? isOpen (by decide)
    omega

theorem Binds.cut {w : Written} (binds : Binds g w h) (lt : h.next.offset < stop) :
    Binds (g.cut stop) w (h.cut stop) := by
  have le := h.next_upto.offset_le
  cases binds with
  | default isName noComma =>
    exact .default (Gap.name?_cut isName (by omega)) (Gap.literal?_cut_eq_none noComma lt)
  | @both k l _ name w isName isComma groups =>
    have second := (Gap.upto_of_literal? isComma).offset_le
    have first := (k.next_upto).offset_le
    have third := groups.upto.offset_le
    exact .both (Gap.name?_cut isName (by omega))
      (Gap.literal?_cut isComma (by decide) (by omega)) (groups.cut (by omega))
  | group noName groups =>
    have first := groups.next_lt
    exact .group (Gap.name?_cut_eq_none noName (by omega)) (groups.cut (by omega))

theorem Binds.next_lt {w : Written} (binds : Binds g w h) : g.next.offset < h.cursor.offset := by
  cases binds with
  | default isName => exact Gap.next_lt_of_name? isName
  | @both k l _ name w isName isComma groups =>
    have first := Gap.next_lt_of_name? isName
    have second := (k.next_upto.trans (Gap.upto_of_literal? isComma)).offset_le
    have third := groups.upto.offset_le
    omega
  | group _ groups => exact groups.next_lt

/-- A declaration that ends at a place is one in the text that ends there. -/
theorem Declares.cut {w : Written} {path : Text} (declares : Declares g w path h)
    (le : h.cursor.offset ≤ stop) : Declares (g.cut stop) w path (h.cut stop) := by
  cases declares with
  | @effects k _ path isKeyword isString =>
    have := (k.next_upto.trans (Gap.upto_of_string? isString)).offset_le
    exact .effects (Gap.literal?_cut isKeyword (by decide) (by omega)) (Gap.string?_cut isString le)
  | @bindings k l m _ w path isKeyword noString binds isFrom isString =>
    have fourth := (m.next_upto.trans (Gap.upto_of_string? isString)).offset_le
    have third := Gap.next_lt_of_literal? isFrom (by decide)
    have second := l.next_upto.offset_le
    have first := binds.next_lt
    have start := k.next_upto.offset_le
    exact .bindings (Gap.literal?_cut isKeyword (by decide) (by omega))
      (Gap.string?_cut_eq_none noString (by omega)) (binds.cut (by omega))
      (Gap.literal?_cut isFrom (by decide) (by omega)) (Gap.string?_cut isString le)

/-- What a clause that is accepted is written as. -/
theorem declares_of_parse {text : Text} {clause : ImportClause} (h : parse text = .ok clause) :
    ∃ w path k, Declares ⟨.ofSource text, 0⟩ w path k ∧ finish k = .ok () ∧
      w.meaning path = .ok clause := by
  unfold parse at h
  simp only [bind, Except.bind] at h
  split at h
  · cases h
  rename_i r read
  obtain ⟨w, path, k⟩ := r
  split at h
  · cases h
  rename_i ends
  refine ⟨w, path, k, .of_ok read, ends, ?_⟩
  dsimp only at h
  cases meaning : w.meaning path with
  | ok clause' =>
    rw [meaning] at h
    cases h
    rfl
  | error e =>
    rw [meaning] at h
    cases h

/-- The text of a declaration up to its path means the same as the whole. -/
theorem Declares.parse_eq {text path : Text} {w : Written} {k : Gap} {clause : ImportClause}
    (declares : Declares ⟨.ofSource text, 0⟩ w path k) (means : w.meaning path = .ok clause) :
    parse (text.take k.cursor.offset) = .ok clause := by
  have read := (declares.cut (Nat.le_refl _)).declaration_eq
  have atEnd : (k.cut k.cursor.offset).next.rest = [] := by
    have none : (k.cursor.inside (.upTo k.cursor.offset)).rest = [] := by
      simp only [inside, Span.upTo, Nat.sub_self, List.take_zero]
    exact (congrArg Cursor.rest (skipSeparators_of_nil none)).trans none
  have noSemicolon : (k.cut k.cursor.offset).literal? ";" = none := by
    rw [Gap.literal?_eq_none_iff, atEnd]
    rfl
  have ends : finish (k.cut k.cursor.offset) = .ok () := by
    simp only [finish, noSemicolon, Option.getD_none, atEnd, List.isEmpty_nil, if_pos]
  unfold parse
  change declaration (Gap.cut k.cursor.offset ⟨.ofSource text, 0⟩) >>= _ = _
  simp only [read, bind, Except.bind, ends, means]
  rfl

end ImportClause

end StyleBinding
