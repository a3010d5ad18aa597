import StyleBinding.Import.Clause

/-!
# The grammar of import clauses

`Declares g w path h` says that a declaration stands between the gaps `g` and `h`,
written as `w` and with the literal `path`. It is the relation that the readers
of `StyleBinding.Import.Clause` compute, with one rule for each form of a clause
and the tokens that are absent named beside those that are there. The readers
succeed on it and on nothing else, and where they fail they report a token.
-/

namespace StyleBinding

/-- A refusal that blames a token. -/
def ClauseError.BlamesToken : ClauseError → Prop
  | .unexpected _ => True
  | .escape _ => False

namespace ImportClause

/-! ## Tokens -/

namespace Gap

variable {g h : Gap} {word : String} {t : Text}

theorem literal?_eq_some_iff : g.literal? word = some h ↔
    Text.startsWith g.next.rest word = true ∧ h = g.behind word.toList.length := by
  rw [literal?]
  split
  · rename_i here
    rw [Option.some_inj, eq_comm, and_iff_right here]
  · rename_i other
    exact ⟨nofun, fun both => absurd both.1 other⟩

theorem literal?_eq_none_iff :
    g.literal? word = none ↔ Text.startsWith g.next.rest word = false := by
  rw [literal?]
  split <;> simp_all

theorem name?_eq_some_iff : g.name? = some (t, h) ↔
    0 < Lexeme.nameLength g.next.rest ∧ t = g.next.rest.take (Lexeme.nameLength g.next.rest) ∧
      h = g.behind (Lexeme.nameLength g.next.rest) := by
  rw [name?, token?]
  split
  · rename_i none
    rw [none]
    exact ⟨nofun, fun all => absurd all.1 (Nat.lt_irrefl 0)⟩
  · rename_i some
    simp only [Option.map_some, Option.some_inj, Prod.mk.injEq, Nat.pos_of_ne_zero some, true_and,
      eq_comm]

theorem name?_eq_none_iff : g.name? = none ↔ Lexeme.nameLength g.next.rest = 0 := by
  rw [name?, token?]
  split <;> simp_all

theorem string?_eq_some_iff : g.string? = some (t, h) ↔
    ∃ n, Lexeme.stringLength? g.next.rest = some n ∧ t = g.next.rest.take n ∧
      h = g.behind n := by
  rw [string?, token?, Option.map_eq_some_iff]
  simp only [Prod.mk.injEq, eq_comm]

theorem string?_eq_none_iff : g.string? = none ↔ Lexeme.stringLength? g.next.rest = none := by
  rw [string?, token?, Option.map_eq_none_iff]

theorem next_upto (g : Gap) : g.cursor.Upto g.next := g.cursor.skipSeparators.2

theorem upto_of_literal? (e : g.literal? word = some h) : g.next.Upto h.cursor := by
  obtain ⟨here, rfl⟩ := literal?_eq_some_iff.1 e
  exact Cursor.upto_advance (Cursor.le_length_of_startsWith here)

theorem upto_of_name? (e : g.name? = some (t, h)) : g.next.Upto h.cursor := by
  obtain ⟨_, _, rfl⟩ := name?_eq_some_iff.1 e
  exact Cursor.upto_advance (Lexeme.nameLength_le _)

theorem upto_of_string? (e : g.string? = some (t, h)) : g.next.Upto h.cursor := by
  obtain ⟨n, isString, _, rfl⟩ := string?_eq_some_iff.1 e
  exact Cursor.upto_advance (Lexeme.stringLength?_bounds isString).2

end Gap

/-- An exported name is a name, or a literal where no name stands. -/
theorem exportName?_eq_some_iff {g h : Gap} {name : ExportName} :
    exportName? g = some (name, h) ↔
      (∃ t, g.name? = some (t, h) ∧ name = .plain t) ∨
        (g.name? = none ∧ ∃ raw, g.string? = some (raw, h) ∧ name = .quoted raw) := by
  rw [exportName?]
  cases g.name? with
  | some r =>
    obtain ⟨t, k⟩ := r
    simp only [Option.some.injEq, Prod.mk.injEq, reduceCtorEq, false_and, or_false]
    constructor
    · rintro ⟨rfl, rfl⟩
      exact ⟨t, ⟨rfl, rfl⟩, rfl⟩
    · rintro ⟨t', ⟨rfl, rfl⟩, rfl⟩
      exact ⟨rfl, rfl⟩
  | none =>
    simp only [Option.map_eq_some_iff, reduceCtorEq, false_and, exists_false, false_or, true_and]
    constructor
    · rintro ⟨⟨raw, k⟩, isString, same⟩
      cases same
      exact ⟨raw, isString, rfl⟩
    · rintro ⟨raw, isString, rfl⟩
      exact ⟨(raw, h), isString, rfl⟩

theorem upto_of_exportName? {g h : Gap} {name : ExportName} (e : exportName? g = some (name, h)) :
    g.next.Upto h.cursor := by
  rcases exportName?_eq_some_iff.1 e with ⟨t, isName, _⟩ | ⟨_, raw, isString, _⟩
  · exact Gap.upto_of_name? isName
  · exact Gap.upto_of_string? isString

/-! ## The relation -/

/-- What stands behind an exported name: a local name, or nothing. -/
inductive Renames (g : Gap) : Option Text → Gap → Prop
  | kept : g.literal? "as" = none → Renames g none g
  | renamed {h k : Gap} {name : Text} :
    g.literal? "as" = some h → h.name? = some (name, k) → Renames g (some name) k

/-- Specifiers and the brace behind them. -/
inductive Lists : Gap → List (ExportName × Option Text) → Gap → Prop
  | close {g h : Gap} : g.literal? "\x7d" = some h → Lists g [] h
  | last {g h k l : Gap} {name : ExportName} {bound : Option Text} :
    g.literal? "\x7d" = none → exportName? g = some (name, h) → Renames h bound k →
    k.literal? "," = none → k.literal? "\x7d" = some l → Lists g [(name, bound)] l
  | more {g h k l m : Gap} {name : ExportName} {bound : Option Text}
      {rest : List (ExportName × Option Text)} :
    g.literal? "\x7d" = none → exportName? g = some (name, h) → Renames h bound k →
    k.literal? "," = some l → Lists l rest m → Lists g ((name, bound) :: rest) m

/-- A namespace, or specifiers in braces. -/
inductive Groups (g : Gap) : Written → Gap → Prop
  | all {h k l : Gap} {name : Text} :
    g.literal? "*" = some h → h.literal? "as" = some k → k.name? = some (name, l) →
    Groups g { namespaceName := some name } l
  | named {h k : Gap} {named : List (ExportName × Option Text)} :
    g.literal? "*" = none → g.literal? "\x7b" = some h → Lists h named k → Groups g { named } k

/-- What stands between the keywords `import` and `from`. -/
inductive Binds (g : Gap) : Written → Gap → Prop
  | default {h : Gap} {name : Text} :
    g.name? = some (name, h) → h.literal? "," = none → Binds g { defaultName := some name } h
  | both {h k l : Gap} {name : Text} {w : Written} :
    g.name? = some (name, h) → h.literal? "," = some k → Groups k w l →
    Binds g { w with defaultName := some name } l
  | group {h : Gap} {w : Written} : g.name? = none → Groups g w h → Binds g w h

/-- A declaration up to its path. -/
inductive Declares (g : Gap) : Written → Text → Gap → Prop
  | effects {h k : Gap} {path : Text} :
    g.literal? "import" = some h → h.string? = some (path, k) → Declares g {} path k
  | bindings {h k l m : Gap} {w : Written} {path : Text} :
    g.literal? "import" = some h → h.string? = none → Binds h w k →
    k.literal? "from" = some l → l.string? = some (path, m) → Declares g w path m

/-! ### How far it reaches -/

theorem Renames.upto {g k : Gap} {bound : Option Text} (h : Renames g bound k) :
    g.cursor.Upto k.cursor := by
  cases h with
  | kept => exact .refl _
  | @renamed h k name isKeyword isName =>
    exact (g.next_upto.trans (Gap.upto_of_literal? isKeyword)).trans
      (h.next_upto.trans (Gap.upto_of_name? isName))

theorem Lists.upto {g l : Gap} {named : List (ExportName × Option Text)} (h : Lists g named l) :
    g.cursor.Upto l.cursor := by
  induction h with
  | @close g h isClose => exact g.next_upto.trans (Gap.upto_of_literal? isClose)
  | @last g h k l name bound _ isName renames _ isClose =>
    exact ((g.next_upto.trans (upto_of_exportName? isName)).trans renames.upto).trans
      (k.next_upto.trans (Gap.upto_of_literal? isClose))
  | @more g h k l m name bound rest _ isName renames isComma _ ih =>
    exact (((g.next_upto.trans (upto_of_exportName? isName)).trans renames.upto).trans
      (k.next_upto.trans (Gap.upto_of_literal? isComma))).trans ih

theorem Groups.upto {g h : Gap} {w : Written} (groups : Groups g w h) :
    g.cursor.Upto h.cursor := by
  cases groups with
  | @all h k l name isStar isKeyword isName =>
    exact ((g.next_upto.trans (Gap.upto_of_literal? isStar)).trans
      (h.next_upto.trans (Gap.upto_of_literal? isKeyword))).trans
      (k.next_upto.trans (Gap.upto_of_name? isName))
  | named _ isOpen lists => exact (g.next_upto.trans (Gap.upto_of_literal? isOpen)).trans lists.upto

theorem Binds.upto {g h : Gap} {w : Written} (binds : Binds g w h) : g.cursor.Upto h.cursor := by
  cases binds with
  | default isName => exact g.next_upto.trans (Gap.upto_of_name? isName)
  | @both h k l name w isName isComma groups =>
    exact ((g.next_upto.trans (Gap.upto_of_name? isName)).trans
      (h.next_upto.trans (Gap.upto_of_literal? isComma))).trans groups.upto
  | group _ groups => exact groups.upto

/-! ## The readers -/

theorem Gap.expect_eq_ok_iff {g h : Gap} {word : String} :
    g.expect word = .ok h ↔ g.literal? word = some h := by
  rw [expect]
  cases g.literal? word <;> simp

theorem Gap.expectName_eq_ok_iff {g h : Gap} {name : Text} :
    g.expectName = .ok (name, h) ↔ g.name? = some (name, h) := by
  rw [expectName]
  cases g.name? <;> simp

theorem Gap.expectString_eq_ok_iff {g h : Gap} {literal : Text} :
    g.expectString = .ok (literal, h) ↔ g.string? = some (literal, h) := by
  rw [expectString]
  cases g.string? <;> simp

theorem Renames.of_ok {g : Gap} {r : { r : Option Text × Gap //
    r.2.cursor.rest.length ≤ g.cursor.rest.length }} (h : rename g = .ok r) :
    Renames g r.1.1 r.1.2 := by
  unfold rename at h
  split at h
  · rename_i noKeyword
    cases h
    exact .kept noKeyword
  · rename_i isKeyword
    split at h
    · cases h
    · rename_i isName
      cases h
      exact .renamed isKeyword isName

theorem Renames.rename_eq {g k : Gap} {bound : Option Text} (h : Renames g bound k) :
    ∃ le, rename g = .ok ⟨(bound, k), le⟩ := by
  unfold rename
  cases h with
  | kept noKeyword =>
    refine ⟨Nat.le_refl _, ?_⟩
    split
    · rfl
    · rename_i isKeyword
      rw [noKeyword] at isKeyword
      cases isKeyword
  | renamed isKeyword isName =>
    refine ⟨Nat.le_of_lt (Nat.lt_trans (Gap.name?_lt isName)
      (Gap.literal?_lt (by decide) isKeyword)), ?_⟩
    split
    · rename_i noKeyword
      rw [isKeyword] at noKeyword
      cases noKeyword
    · rename_i isKeyword'
      obtain rfl := Option.some.inj (isKeyword.symm.trans isKeyword')
      split
      · rename_i noName
        rw [isName] at noName
        cases noName
      · rename_i isName'
        cases isName.symm.trans isName'
        rfl

/-- One specifier, and more of them behind a comma. -/
theorem specifiers_eq (g : Gap) : specifiers g =
    match g.literal? "\x7d" with
    | some h => .ok ([], h)
    | none =>
      match exportName? g with
      | none => .error g.refuse
      | some (name, h) =>
        match rename h with
        | .error e => .error e
        | .ok ⟨(bound, k), _⟩ =>
          match k.literal? "," with
          | some m =>
            match specifiers m with
            | .error e => .error e
            | .ok (more, l) => .ok ((name, bound) :: more, l)
          | none =>
            match k.literal? "\x7d" with
            | some l => .ok ([(name, bound)], l)
            | none => .error k.refuse := by
  cases isClose : g.literal? "\x7d" with
  | some h => rw [specifiers, isClose]
  | none =>
    rw [specifiers, isClose]
    dsimp only
    split
    · rename_i noName
      rw [noName]
    · rename_i name h isName
      rw [isName]
      dsimp only
      rcases rename h with e | ⟨⟨bound, k⟩, le⟩
      · rfl
      · dsimp only
        split
        · rename_i m isComma
          rcases tail : specifiers m with e | ⟨more, l⟩ <;> simp only [isComma, tail]
        · rename_i noComma
          cases k.literal? "\x7d" <;> simp only [noComma]

theorem Lists.of_ok {g l : Gap} {named : List (ExportName × Option Text)}
    (h : specifiers g = .ok (named, l)) : Lists g named l := by
  fun_induction specifiers g generalizing named with
  | case1 g h' isClose =>
    cases h
    exact .close isClose
  | case2 | case3 | case4 | case7 => cases h
  | case5 g isOpen name h' isName bound k le isRename l isComma shorter more m found ih =>
    cases h
    exact .more isOpen isName (.of_ok isRename) isComma (ih found)
  | case6 g isOpen name h' isName bound k le isRename noComma l isClose =>
    cases h
    exact .last isOpen isName (.of_ok isRename) noComma isClose

theorem Lists.specifiers_eq {g l : Gap} {named : List (ExportName × Option Text)}
    (h : Lists g named l) : specifiers g = .ok (named, l) := by
  induction h with
  | close isClose =>
    rw [ImportClause.specifiers_eq, isClose]
  | last isOpen isName renames noComma isClose =>
    obtain ⟨_, isRename⟩ := renames.rename_eq
    rw [ImportClause.specifiers_eq, isOpen, isName]
    simp only [isRename, noComma, isClose]
  | more isOpen isName renames isComma _ ih =>
    obtain ⟨_, isRename⟩ := renames.rename_eq
    rw [ImportClause.specifiers_eq, isOpen, isName]
    simp only [isRename, isComma, ih]

theorem Groups.of_ok {g h : Gap} {w : Written} (ok : group g = .ok (w, h)) : Groups g w h := by
  unfold group at ok
  split at ok
  · rename_i isStar
    simp only [bind, Except.bind] at ok
    split at ok
    · cases ok
    rename_i k isKeyword
    split at ok
    · cases ok
    rename_i r isName
    cases ok
    exact .all isStar (Gap.expect_eq_ok_iff.1 isKeyword) (Gap.expectName_eq_ok_iff.1 isName)
  · rename_i noStar
    simp only [bind, Except.bind] at ok
    split at ok
    · cases ok
    rename_i k isOpen
    split at ok
    · cases ok
    rename_i r listed
    cases ok
    exact .named noStar (Gap.expect_eq_ok_iff.1 isOpen) (.of_ok listed)

theorem Groups.group_eq {g h : Gap} {w : Written} (groups : Groups g w h) :
    group g = .ok (w, h) := by
  unfold group
  cases groups with
  | all isStar isKeyword isName =>
    simp only [isStar, Gap.expect_eq_ok_iff.2 isKeyword, Gap.expectName_eq_ok_iff.2 isName, bind,
      Except.bind]
    rfl
  | named noStar isOpen listed =>
    simp only [noStar, Gap.expect_eq_ok_iff.2 isOpen, listed.specifiers_eq, bind, Except.bind]
    rfl

theorem Binds.of_ok {g h : Gap} {w : Written} (ok : bindings g = .ok (w, h)) : Binds g w h := by
  unfold bindings at ok
  split at ok
  · rename_i isName
    split at ok
    · rename_i isComma
      simp only [bind, Except.bind] at ok
      split at ok
      · cases ok
      rename_i r groups
      cases ok
      exact .both isName isComma (.of_ok groups)
    · rename_i noComma
      cases ok
      exact .default isName noComma
  · rename_i noName
    exact .group noName (.of_ok ok)

theorem Binds.bindings_eq {g h : Gap} {w : Written} (binds : Binds g w h) :
    bindings g = .ok (w, h) := by
  unfold bindings
  cases binds with
  | default isName noComma =>
    simp only [isName, noComma]
    rfl
  | both isName isComma groups =>
    simp only [isName, isComma, groups.group_eq, bind, Except.bind]
    rfl
  | group noName groups => simp only [noName, groups.group_eq]

theorem Declares.of_ok {g h : Gap} {w : Written} {path : Text}
    (ok : declaration g = .ok (w, path, h)) : Declares g w path h := by
  unfold declaration at ok
  simp only [bind, Except.bind] at ok
  split at ok
  · cases ok
  rename_i k isKeyword
  have isKeyword := Gap.expect_eq_ok_iff.1 isKeyword
  split at ok
  · rename_i isString
    cases ok
    exact .effects isKeyword isString
  · rename_i noString
    split at ok
    · cases ok
    rename_i r binds
    split at ok
    · cases ok
    rename_i l isFrom
    split at ok
    · cases ok
    rename_i r' isString
    cases ok
    exact .bindings isKeyword noString (.of_ok binds) (Gap.expect_eq_ok_iff.1 isFrom)
      (Gap.expectString_eq_ok_iff.1 isString)

theorem Declares.declaration_eq {g h : Gap} {w : Written} {path : Text}
    (declares : Declares g w path h) : declaration g = .ok (w, path, h) := by
  unfold declaration
  cases declares with
  | effects isKeyword isString =>
    simp only [Gap.expect_eq_ok_iff.2 isKeyword, isString, bind, Except.bind]
    rfl
  | bindings isKeyword noString binds isFrom isString =>
    simp only [Gap.expect_eq_ok_iff.2 isKeyword, noString, binds.bindings_eq,
      Gap.expect_eq_ok_iff.2 isFrom, Gap.expectString_eq_ok_iff.2 isString, bind, Except.bind]
    rfl

/-! ## Refusals -/

theorem Gap.blamesToken_of_expect {g : Gap} {word : String} {e : ClauseError}
    (h : g.expect word = .error e) : e.BlamesToken := by
  unfold expect at h
  split at h <;> cases h
  trivial

theorem Gap.blamesToken_of_expectName {g : Gap} {e : ClauseError}
    (h : g.expectName = .error e) : e.BlamesToken := by
  unfold expectName at h
  split at h <;> cases h
  trivial

theorem Gap.blamesToken_of_expectString {g : Gap} {e : ClauseError}
    (h : g.expectString = .error e) : e.BlamesToken := by
  unfold expectString at h
  split at h <;> cases h
  trivial

theorem blamesToken_of_rename {g : Gap} {e : ClauseError} (h : rename g = .error e) :
    e.BlamesToken := by
  unfold rename at h
  split at h
  · cases h
  · split at h <;> cases h
    trivial

theorem blamesToken_of_specifiers {g : Gap} {e : ClauseError} (h : specifiers g = .error e) :
    e.BlamesToken := by
  fun_induction specifiers g with
  | case1 | case5 | case6 => cases h
  | case2 | case7 =>
    cases h
    trivial
  | case3 =>
    rename_i isRename
    cases h
    exact blamesToken_of_rename isRename
  | case4 =>
    rename_i found ih
    cases h
    exact ih found

theorem blamesToken_of_group {g : Gap} {e : ClauseError} (h : group g = .error e) :
    e.BlamesToken := by
  unfold group at h
  simp only [bind, Except.bind] at h
  split at h
  · split at h
    · rename_i noKeyword
      cases h
      exact Gap.blamesToken_of_expect noKeyword
    · split at h <;> cases h
      rename_i noName
      exact Gap.blamesToken_of_expectName noName
  · split at h
    · rename_i noBrace
      cases h
      exact Gap.blamesToken_of_expect noBrace
    · split at h <;> cases h
      rename_i noList
      exact blamesToken_of_specifiers noList

theorem blamesToken_of_bindings {g : Gap} {e : ClauseError} (h : bindings g = .error e) :
    e.BlamesToken := by
  unfold bindings at h
  simp only [bind, Except.bind] at h
  split at h
  · split at h
    · split at h <;> cases h
      rename_i noGroup
      exact blamesToken_of_group noGroup
    · cases h
  · exact blamesToken_of_group h

theorem blamesToken_of_declaration {g : Gap} {e : ClauseError} (h : declaration g = .error e) :
    e.BlamesToken := by
  unfold declaration at h
  simp only [bind, Except.bind] at h
  split at h
  · rename_i noKeyword
    cases h
    exact Gap.blamesToken_of_expect noKeyword
  split at h
  · cases h
  split at h
  · rename_i noBindings
    cases h
    exact blamesToken_of_bindings noBindings
  split at h
  · rename_i noFrom
    cases h
    exact Gap.blamesToken_of_expect noFrom
  split at h <;> cases h
  rename_i noString
  exact Gap.blamesToken_of_expectString noString

/-- A clause is refused for an escape only if it can be read, up to the literals in
it. -/
theorem declares_of_escape {text : Text} {e : EscapeBeyondLimit}
    (h : parse text = .error (.escape e)) :
    ∃ w path g, Declares ⟨.ofSource text, 0⟩ w path g ∧ w.meaning path = .error e := by
  unfold parse at h
  simp only [bind, Except.bind] at h
  split at h
  · rename_i noDeclaration
    cases h
    exact (blamesToken_of_declaration noDeclaration).elim
  rename_i r read
  obtain ⟨w, path, g⟩ := r
  split at h
  · rename_i noEnd
    unfold finish at noEnd
    dsimp only at noEnd
    split at noEnd <;> cases noEnd
    cases h
  refine ⟨w, path, g, .of_ok read, ?_⟩
  dsimp only at h
  cases meaning : w.meaning path with
  | ok clause =>
    rw [meaning] at h
    cases h
  | error e' =>
    rw [meaning] at h
    cases h
    rfl

end ImportClause

end StyleBinding
