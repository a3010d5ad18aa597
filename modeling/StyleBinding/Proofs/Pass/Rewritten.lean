import StyleBinding.Proofs.Pass.Identifiers
import StyleBinding.Proofs.Pass.Printed
import StyleBinding.Proofs.Printing.Around
import StyleBinding.Proofs.Reading.Path

/-!
# Rewritten imports read back

An import that is given a name is printed as a declaration that the grammar reads as the
same path under that name, whatever stood between the keyword and the path. The generated
name is an identifier, blanks stand around it, and the literal of the path is the one that
the grammar has read.
-/

namespace StyleBinding

open Cursor Lexeme

namespace ImportClause

/-! ## A clause with a default name alone -/

section Blanks

variable {g h : Gap} {x : CodePoint} {t name literal : Text}

/-- Behind one blank the next token starts. -/
theorem Gap.next_of_blank (hr : g.cursor.rest = .scalar ' ' :: x :: t)
    (starts : startsToken x = true) : g.next = g.cursor.advance 1 := by
  have rest : (g.cursor.advance 1).rest = x :: t := by rw [advance, hr]; rfl
  refine (skipSeparators_of_separator hr rfl).trans ?_
  exact next_eq (g := ⟨g.cursor.advance 1, g.lastToken⟩) rest starts

theorem Gap.string?_of_blank (hr : g.cursor.rest = .scalar ' ' :: literal)
    (isString : stringLength? literal = some literal.length) :
    g.string? =
      some (literal, ⟨⟨g.cursor.offset + 1 + literal.length, []⟩, g.cursor.offset + 1⟩) := by
  obtain ⟨x, t, isCons, isQuote⟩ := Document.isQuote_of_stringLength? isString
  have next := next_of_blank (isCons ▸ hr) (startsToken_of_isQuote isQuote)
  have rest : g.next.rest = literal := by rw [next, advance, hr]; rfl
  refine string?_eq_some_iff.2 ⟨literal.length, rest ▸ isString, ?_, ?_⟩
  · rw [rest, List.take_length]
  · rw [behind, advance, rest, List.drop_length, next]
    rfl

theorem Gap.name?_of_blank (hr : g.cursor.rest = .scalar ' ' :: (name ++ .scalar ' ' :: t))
    (isName : name.IsIdentifier) :
    g.string? = none ∧ g.name? = some (name,
      ⟨⟨g.cursor.offset + 1 + name.length, .scalar ' ' :: t⟩, g.cursor.offset + 1⟩) := by
  obtain ⟨allName, first⟩ := isName.isName
  obtain ⟨c, rest, isCons, _⟩ := head?_any first
  have isNameC : c.isName = true :=
    List.all_eq_true.1 allName c (isCons ▸ List.mem_cons_self)
  have next : g.next = g.cursor.advance 1 :=
    next_of_blank (by rw [hr, isCons]; rfl) (startsToken_of_isName isNameC)
  have nextRest : g.next.rest = name ++ .scalar ' ' :: t := by rw [next, advance, hr]; rfl
  constructor
  · rw [string?_eq_none_iff, nextRest]
    by_contra isString
    obtain ⟨n, isString⟩ := Option.ne_none_iff_exists'.1 isString
    obtain ⟨x, u, isCons', isQuote⟩ := Document.isQuote_of_stringLength? isString
    rw [isCons] at isCons'
    cases isCons'
    rw [not_isQuote_of_isName isNameC] at isQuote
    cases isQuote
  · have length : nameLength g.next.rest = name.length := by
      rw [nextRest, nameLength_append allName first]
      rfl
    refine name?_eq_some_iff.2 ⟨?_, ?_, ?_⟩
    · rw [length, isCons]
      exact Nat.succ_pos _
    · rw [length, nextRest, List.take_left]
    · rw [length, behind, advance, nextRest, List.drop_left, next]
      rfl

end Blanks

/-- The text of a declaration that binds a default name alone is read as one. -/
theorem parse_of_default {name literal source : Text} (isName : name.IsIdentifier)
    (isString : stringLength? literal = some literal.length)
    (decodes : Literal.decodeQuoted literal = .ok source) :
    parse ("import" ++ (" " ++ name ++ " from ") ++ literal) =
      .ok { source, defaultName := some name } := by
  let keyword : Text := "import"
  let t : Text := keyword ++ (" " ++ name ++ " from ") ++ literal
  let start : Gap := ⟨(Cursor.ofSource t).advance 6, 0⟩
  let afterName : Gap := ⟨⟨6 + 1 + name.length,
    .scalar ' ' :: (("from" : Text) ++ .scalar ' ' :: literal)⟩, 6 + 1⟩
  let afterFrom : Gap := ⟨⟨6 + 1 + name.length + 1 + 4, .scalar ' ' :: literal⟩,
    6 + 1 + name.length + 1⟩
  have whole : t = keyword ++ ((" " ++ name ++ " from ") ++ literal) := List.append_assoc ..
  have isKeyword : Gap.literal? ⟨.ofSource t, 0⟩ "import" = some start :=
    Document.literal?_import (List.isPrefixOf_iff_prefix.2 ⟨_, whole.symm⟩)
  have behindKeyword : start.cursor.rest =
      .scalar ' ' :: (name ++ .scalar ' ' :: (("from" : Text) ++ .scalar ' ' :: literal)) := by
    change t.drop keyword.length = _
    rw [whole, List.drop_left]
    simp [Text.ofString]
  obtain ⟨noString, isDefault⟩ := Gap.name?_of_blank behindKeyword isName
  have next : afterName.next = afterName.cursor.advance 1 := Gap.next_of_blank rfl rfl
  have noComma : afterName.literal? "," = none := by
    rw [Gap.literal?_eq_none_iff, next]
    rfl
  have isFrom : afterName.literal? "from" = some afterFrom := by
    rw [Gap.literal?_eq_some_iff, Gap.behind, next]
    exact ⟨rfl, rfl⟩
  have isPath := Gap.string?_of_blank (g := afterFrom) rfl isString
  have declares := Declares.bindings isKeyword noString (.default isDefault noComma) isFrom isPath
  have means : Written.meaning { defaultName := some name } literal =
      .ok { source, defaultName := some name } := by
    simp only [Written.meaning, decodes]
    rfl
  have length : t.length ≤ afterFrom.cursor.offset + 1 + literal.length := by
    simp only [t, keyword, afterFrom, Text.ofString, List.length_append, List.length_map]
    change 6 + (1 + name.length + 6) + literal.length ≤ _
    omega
  have parsed := declares.parse_eq means
  rwa [List.take_of_length_le length] at parsed

end ImportClause

/-! ## Imports that are given names -/

namespace BoundImports

variable {settings : Settings} {taken bound : List Text} {imports : List ImportDeclaration}
  {i : ImportDeclaration} {name : Text}

/-- An import that is given a name is bindable. -/
theorem isBindable_of_binding (unnamed : ∀ j ∈ imports, j.binding = none)
    (member : i ∈ (ofImports settings taken bound imports).imports)
    (named : i.binding = some name) : i.isBindable settings = true := by
  induction imports generalizing taken bound with
  | nil => cases member
  | cons j rest ih =>
    obtain ⟨first, others⟩ := List.forall_mem_cons.1 unnamed
    rcases ofImports_cons_cases settings taken bound j rest with
      ⟨_, same, _⟩ | ⟨bindable, _, _, _, isNamed, _⟩
    · rw [same] at member
      rcases List.mem_cons.1 member with rfl | member
      · rw [first] at named
        cases named
      · exact ih others member
    · rw [isNamed] at member
      rcases List.mem_cons.1 member with rfl | member
      · exact bindable
      · exact ih others member

end BoundImports

theorem ImportDeclaration.boundNames_of_bindsNothing {i : ImportDeclaration}
    (h : i.bindsNothing = true) : i.clause.boundNames = [] := by
  rw [bindsNothing, Bool.and_eq_true, Bool.and_eq_true, Option.isNone_iff_eq_none,
    Option.isNone_iff_eq_none, List.isEmpty_iff] at h
  rw [ImportClause.boundNames, h.1.1, h.1.2, h.2]
  rfl

/-- A literal is one by itself too. -/
theorem Span.stringLength?_text {s : Span} {source : Text}
    (h : stringLength? (source.drop s.start) = some s.length) :
    stringLength? (s.text source) = some (s.text source).length := by
  have bounds := stringLength?_bounds h
  have length : (s.text source).length = s.length := by
    rw [Span.text, Text.slice, List.length_take]
    exact Nat.min_eq_left bounds.2
  rw [length]
  exact stringLength?_take h (Nat.le_refl _)

namespace Document

variable {d e : Document} {settings : Settings} {source : Text}

/-- What the imports of a document that have been given names are printed as is read as the
same path under that name, with no other bindings. -/
def ReadsBack (d : Document) : Prop :=
  ∀ i ∈ d.imports, ∀ name, i.binding = some name → ∃ text, d.PrintsImport i text ∧
    ImportClause.parse text = .ok { source := i.clause.source, defaultName := some name }

/-- However a document is revised beside its imports, those that were given names read back. -/
theorem Revises.readsBack (r : e.Revises d) (read : parse source = .ok d)
    (bound : e.imports = (d.boundImports settings).imports) {out : Text}
    (prints : e.print = .ok out) : e.ReadsBack := by
  intro i member name named
  have laid := laid_of_parse read
  have unnamed : ∀ j ∈ d.imports, j.binding = none := fun j member =>
    (laid.declared.laid j member).unnamed
  have memberB : i ∈ (d.boundImports settings).imports := bound ▸ member
  have inBindings : name ∈ (d.boundImports settings).bindings := by
    rw [boundImports, BoundImports.bindings_eq_filterMap unnamed]
    exact List.mem_filterMap.2 ⟨i, memberB, named⟩
  have bindable := BoundImports.isBindable_of_binding unnamed memberB named
  rw [ImportDeclaration.isBindable, Bool.and_eq_true, Bool.and_eq_true, Bool.not_eq_true']
    at bindable
  obtain ⟨⟨noTypes, _⟩, bindsNothing⟩ := bindable
  have others : ("as" : Text) ∉ i.clause.boundNames := by
    rw [ImportDeclaration.boundNames_of_bindsNothing bindsNothing]
    exact List.not_mem_nil
  have given : i.givenName = some name := (laid.givenName_eq memberB).trans named
  obtain ⟨isString, decodes⟩ := path_of_parse read (laid.unbound_mem memberB) noTypes others
  have isSource : e.source = source := r.source.trans (source_of_parse read)
  refine ⟨_, r.printsImport laid member given prints, ?_⟩
  rw [isSource]
  exact ImportClause.parse_of_default (BoundImports.isIdentifier_of_mem inBindings)
    (Span.stringLength?_text isString) decodes

/-- A document whose imports have been bound prints. -/
theorem Laid.print_bindImports_ok (h : d.Laid) (settings : Settings) :
    ∃ text, (d.bindImports settings).print = .ok text := by
  refine printStretch_ok (fun e member => ?_) _
  rcases List.mem_append.1 (mem_edits.1 member) with member | member
  · rcases List.mem_append.1 member with member | member
    · obtain ⟨i, _, isEdit⟩ := List.mem_filterMap.1 member
      obtain ⟨name, _, rfl⟩ := Option.map_eq_some_iff.1 isEdit
      trivial
    · obtain ⟨b, memberB, isEdit⟩ := List.mem_filterMap.1 member
      have unchanged := (h.forest.laid b memberB).unchanged
      rw [Element.edit?, Element.isChanged, unchanged, bne_self_eq_false,
        if_neg Bool.false_ne_true] at isEdit
      cases isEdit
  · obtain ⟨_, rfl⟩ := preludeEdit?_eq_some_iff.1 (Option.mem_toList.1 member)
    trivial

/-- Whatever a declaration was like, once it is given a name it reads back: after binding
alone, after the whole pass, and after any other change to the document. -/
theorem named_imports_readBack (read : parse source = .ok d) (settings : Settings) :
    (d.bindImports settings).ReadsBack ∧ (d.transform settings).ReadsBack ∧
      ∀ (e : Document) out, e.Revises d → e.imports = (d.boundImports settings).imports →
        e.print = .ok out → e.ReadsBack := by
  have laid := laid_of_parse read
  refine ⟨?_, ?_, fun e out r bound prints => r.readsBack read bound prints⟩
  · obtain ⟨out, prints⟩ := laid.print_bindImports_ok settings
    exact (bindImports_revises settings d).readsBack read rfl prints
  · obtain ⟨out, prints⟩ := laid.print_transform_ok settings
    cases bound : (d.boundImports settings).accessor? with
    | none =>
      rw [transform_of_none bound]
      intro i member name named
      rw [(laid.declared.laid i member).unnamed] at named
      cases named
    | some a =>
      have imports : (d.transform settings).imports = (d.boundImports settings).imports := by
        rw [transform_of_accessor bound]
        rfl
      exact (transform_revises settings d).readsBack read imports prints

/-- Two imports that bind nothing, with a comment, empty braces and an escape. -/
def spacedSource : Text :=
  "import/* a */ \x7b\n\x7d from'./a.css';\nimport\"./\\x62.css\"\n"

theorem named_imports_readBack_spaced :
    ∃ d, parse spacedSource = .ok d ∧
      (d.bindImports (.default [])).imports.map (fun i => (i.clause.source, i.binding)) =
        [(("./a.css" : Text), some ("aStyleSheet" : Text)),
          (("./b.css" : Text), some ("bStyleSheet" : Text))] ∧
      (d.transform (.default [])).ReadsBack := by
  obtain ⟨d, read, names⟩ := exists_ok_of_decide (x := parse spacedSource)
    (p := fun d =>
      (d.bindImports (.default [])).imports.map (fun i => (i.clause.source, i.binding)) =
        [(("./a.css" : Text), some ("aStyleSheet" : Text)),
          (("./b.css" : Text), some ("bStyleSheet" : Text))]) (by decide +kernel)
  exact ⟨d, read, names, (named_imports_readBack read (.default [])).2.1⟩

end Document

end StyleBinding
