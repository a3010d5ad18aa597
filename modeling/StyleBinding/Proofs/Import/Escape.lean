import StyleBinding.Proofs.Import.Grammar
import StyleBinding.Proofs.Source.Escape

/-!
# Escapes in import clauses

The literals of a clause are stretches of its text. So a clause that is refused
for an escape has the escape in its text, and the escape names a number beyond
the last code point.
-/

namespace StyleBinding

namespace ImportClause

/-! ## Literals are stretches of the text -/

theorem Gap.infix_of_string? {g h : Gap} {raw : Text} (e : g.string? = some (raw, h)) :
    raw <:+: g.cursor.rest := by
  obtain ⟨n, _, rfl, _⟩ := Gap.string?_eq_some_iff.1 e
  exact (List.take_prefix n _).isInfix.trans g.next_upto.suffix.isInfix

/-- The quoted names among specifiers are stretches of a text. -/
def QuotedIn (text : Text) (named : List (ExportName × Option Text)) : Prop :=
  ∀ raw bound, (.quoted raw, bound) ∈ named → raw <:+: text

theorem QuotedIn.of_upto {c d : Cursor} {named : List (ExportName × Option Text)}
    (h : QuotedIn d.rest named) (upto : c.Upto d) : QuotedIn c.rest named :=
  fun raw bound member => (h raw bound member).trans upto.suffix.isInfix

theorem QuotedIn.cons {g h : Gap} {name : ExportName} {bound : Option Text}
    {rest : List (ExportName × Option Text)} (isName : exportName? g = some (name, h))
    (quoted : QuotedIn g.cursor.rest rest) : QuotedIn g.cursor.rest ((name, bound) :: rest) := by
  intro raw bound' member
  rcases List.mem_cons.1 member with same | member
  · cases same
    rcases exportName?_eq_some_iff.1 isName with ⟨_, _, same⟩ | ⟨_, raw', isString, same⟩
    · cases same
    · cases same
      exact Gap.infix_of_string? isString
  · exact quoted raw bound' member

theorem Lists.quotedIn {g l : Gap} {named : List (ExportName × Option Text)}
    (h : Lists g named l) : QuotedIn g.cursor.rest named := by
  induction h with
  | close => exact nofun
  | last _ isName => exact .cons isName nofun
  | @more g h k l m name bound rest _ isName renames isComma _ ih =>
    exact .cons isName (ih.of_upto (((g.next_upto.trans (upto_of_exportName? isName)).trans
      renames.upto).trans (k.next_upto.trans (Gap.upto_of_literal? isComma))))

theorem Groups.quotedIn {g h : Gap} {w : Written} (groups : Groups g w h) :
    QuotedIn g.cursor.rest w.named := by
  cases groups with
  | all => exact nofun
  | named _ isOpen lists =>
    exact lists.quotedIn.of_upto (g.next_upto.trans (Gap.upto_of_literal? isOpen))

theorem Binds.quotedIn {g h : Gap} {w : Written} (binds : Binds g w h) :
    QuotedIn g.cursor.rest w.named := by
  cases binds with
  | default => exact nofun
  | @both h k l name w isName isComma groups =>
    exact groups.quotedIn.of_upto ((g.next_upto.trans (Gap.upto_of_name? isName)).trans
      (h.next_upto.trans (Gap.upto_of_literal? isComma)))
  | group _ groups => exact groups.quotedIn

theorem Declares.infix_and_quotedIn {g h : Gap} {w : Written} {path : Text}
    (declares : Declares g w path h) :
    path <:+: g.cursor.rest ∧ QuotedIn g.cursor.rest w.named := by
  cases declares with
  | effects isKeyword isString =>
    have start := g.next_upto.trans (Gap.upto_of_literal? isKeyword)
    exact ⟨(Gap.infix_of_string? isString).trans start.suffix.isInfix, nofun⟩
  | @bindings h k l m w path isKeyword _ binds isFrom isString =>
    have start := g.next_upto.trans (Gap.upto_of_literal? isKeyword)
    have stop := (start.trans binds.upto).trans
      (k.next_upto.trans (Gap.upto_of_literal? isFrom))
    exact ⟨(Gap.infix_of_string? isString).trans stop.suffix.isInfix,
      binds.quotedIn.of_upto start⟩

/-! ## Refused escapes -/

theorem quoted_of_specifier_eq_error {name : ExportName} {bound : Option Text}
    {e : EscapeBeyondLimit} (h : Written.specifier name bound = .error e) :
    ∃ raw, name = .quoted raw ∧ Literal.decodeQuoted raw = .error e := by
  cases name with
  | plain name => cases h
  | quoted raw =>
    refine ⟨raw, rfl, ?_⟩
    cases decoded : Literal.decodeQuoted raw with
    | ok text =>
      simp only [Written.specifier, ExportName.meaning, decoded] at h
      cases h
    | error e' =>
      simp only [Written.specifier, ExportName.meaning, decoded] at h
      cases h
      rfl

theorem quoted_of_mapM_eq_error {named : List (ExportName × Option Text)} {e : EscapeBeyondLimit}
    (h : (named.mapM fun (name, bound) => Written.specifier name bound) = .error e) :
    ∃ raw bound, (.quoted raw, bound) ∈ named ∧ Literal.decodeQuoted raw = .error e := by
  induction named with
  | nil => cases h
  | cons first rest ih =>
    obtain ⟨name, bound⟩ := first
    rw [List.mapM_cons] at h
    cases made : Written.specifier name bound with
    | error e' =>
      simp only [made] at h
      cases h
      obtain ⟨raw, rfl, failed⟩ := quoted_of_specifier_eq_error made
      exact ⟨raw, bound, List.mem_cons_self, failed⟩
    | ok s =>
      simp only [made] at h
      cases others : rest.mapM fun (name, bound) => Written.specifier name bound with
      | ok more =>
        simp only [others] at h
        cases h
      | error e' =>
        simp only [others] at h
        cases h
        obtain ⟨raw, bound', member, failed⟩ := ih others
        exact ⟨raw, bound', List.mem_cons_of_mem _ member, failed⟩

/-- A clause is refused for one of its literals. -/
theorem quoted_of_meaning_eq_error {w : Written} {path : Text} {e : EscapeBeyondLimit}
    (h : w.meaning path = .error e) :
    Literal.decodeQuoted path = .error e ∨
      ∃ raw bound, (.quoted raw, bound) ∈ w.named ∧ Literal.decodeQuoted raw = .error e := by
  unfold Written.meaning at h
  simp only [bind, Except.bind] at h
  split at h
  · rename_i failed
    cases h
    exact .inr (quoted_of_mapM_eq_error failed)
  split at h
  · rename_i failed
    cases h
    exact .inl failed
  · cases h

/-- A clause that is refused for an escape has it in its text. -/
theorem hasEscape_of_parse {text : Text} {e : EscapeBeyondLimit}
    (h : parse text = .error (.escape e)) : 0x110000 ≤ e.number ∧ text.HasEscape e.number := by
  obtain ⟨w, path, g, declares, failed⟩ := declares_of_escape h
  obtain ⟨isPath, isQuoted⟩ := declares.infix_and_quotedIn
  rcases quoted_of_meaning_eq_error failed with failed | ⟨raw, bound, member, failed⟩
  · obtain ⟨beyond, escape⟩ := Literal.hasEscape_of_decodeQuoted failed
    exact ⟨beyond, escape.of_infix isPath⟩
  · obtain ⟨beyond, escape⟩ := Literal.hasEscape_of_decodeQuoted failed
    exact ⟨beyond, escape.of_infix (isQuoted raw bound member)⟩

end ImportClause

end StyleBinding
