import StyleBinding.Proofs.Reading.Declarations

/-!
# The place of the prelude

Statements are inserted behind the last declaration, and behind the rest of its line
where nothing but blanks and a line comment stands there (`Text.IsLineRest`). That place
is behind every declaration and in no element, because the elements behind a declaration
start behind the blanks and comments that follow it.
-/

namespace StyleBinding

open Cursor

/-- Blanks, which a line comment may follow that reaches up to the end of its line. The
second text stands behind the first. -/
inductive Text.IsLineRest : Text → Text → Prop
  | blanks {t behind : Text} : t.all (·.isBlank) = true → IsLineRest t behind
  | comment {t body behind : Text} : t.all (·.isBlank) = true → .scalar '\n' ∉ body →
    (behind = [] ∨ behind.head? = some (.scalar '\n')) →
    IsLineRest (t ++ (("//" : Text) ++ body)) behind

namespace Text

theorem all_isBlank_of_trim_eq_nil {t : Text} (h : trim t = []) : t.all (·.isBlank) = true := by
  induction t with
  | nil => rfl
  | cons c t ih =>
    cases isBlank : c.isBlank with
    | true => rw [List.all_cons, isBlank, ih (trim_cons t isBlank ▸ h), Bool.and_true]
    | false => exact absurd h (trim_of_not_isBlank isBlank).1

/-- What is left of a text when blanks are taken away stands behind blanks. -/
theorem exists_blanks_of_trim_startsWith {t : Text} {s : String}
    (h : (trim t).startsWith s = true) :
    ∃ blanks rest, t = blanks ++ (ofString s ++ rest) ∧ blanks.all (·.isBlank) = true := by
  have isPrefix := (List.isPrefixOf_iff_prefix.1 h).trans (trimEnd_isPrefix (trimStart t))
  obtain ⟨rest, opens⟩ := isPrefix
  refine ⟨t.takeWhile (·.isBlank), rest, ?_, List.all_takeWhile⟩
  rw [opens]
  exact (List.takeWhile_append_dropWhile (p := (·.isBlank)) (l := t)).symm

/-- A line stands in front of a line feed or of the end. -/
theorem head?_behind_line (t : Text) :
    t.drop (t.takeWhile (!·.is '\n')).length = [] ∨
      (t.drop (t.takeWhile (!·.is '\n')).length).head? = some (.scalar '\n') := by
  have behind : t.drop (t.takeWhile (!·.is '\n')).length = t.dropWhile (!·.is '\n') := by
    have whole := congrArg (List.drop (t.takeWhile (!·.is '\n')).length)
      (List.takeWhile_append_dropWhile (p := (!·.is '\n')) (l := t))
    rw [List.drop_left] at whole
    exact whole.symm
  rw [behind]
  have stops := List.head?_dropWhile_not (fun x : CodePoint => !x.is '\n') t
  cases rest : t.dropWhile (!·.is '\n') with
  | nil => exact .inl rfl
  | cons x u =>
    rw [rest] at stops
    have isFeed : x.is '\n' = true := by simpa using stops
    exact .inr (congrArg some (CodePoint.is_iff.1 isFeed))

/-- A line that is empty but for its blanks, or has a line comment behind them. -/
theorem isLineRest_line {t : Text}
    (h : trim (t.takeWhile (!·.is '\n')) = [] ∨
      (trim (t.takeWhile (!·.is '\n'))).startsWith "//" = true) :
    IsLineRest (t.takeWhile (!·.is '\n')) (t.drop (t.takeWhile (!·.is '\n')).length) := by
  rcases h with blank | opens
  · exact .blanks (all_isBlank_of_trim_eq_nil blank)
  · obtain ⟨blanks, body, line, areBlank⟩ := exists_blanks_of_trim_startsWith opens
    have noFeed : .scalar '\n' ∉ body := by
      intro member
      have inLine : .scalar '\n' ∈ t.takeWhile (!·.is '\n') := by
        rw [line]
        exact List.mem_append_right _ (List.mem_append_right _ member)
      exact absurd (List.mem_takeWhile_imp inLine) (by decide)
    have behind := head?_behind_line t
    rw [line] at behind ⊢
    exact .comment areBlank noFeed behind

end Text

/-! ## Documents -/

namespace Document

/-- Where the prelude of a document goes whose last declaration is given. -/
structure PreludeFollows (d : Document) (last : ImportDeclaration) : Prop where
  stop_le : ∀ i ∈ d.imports, i.span.stop ≤ d.preludePoint
  le_length : d.preludePoint ≤ d.source.length
  outside : ∀ e ∈ d.elements, ¬ (e.span.start < d.preludePoint ∧ d.preludePoint < e.span.stop)
  lineRest : Text.IsLineRest (d.source.slice last.span.stop d.preludePoint)
    (d.source.drop d.preludePoint)

/-- What stands between the last declaration and the prelude is the rest of a line. -/
theorem isLineRest_preludePoint {d : Document} {last : ImportDeclaration}
    (isLast : d.imports.getLast? = some last) :
    Text.IsLineRest (d.source.slice last.span.stop d.preludePoint)
      (d.source.drop d.preludePoint) := by
  unfold preludePoint
  rw [isLast]
  dsimp only
  split
  · rename_i rest
    rw [Bool.or_eq_true, List.isEmpty_iff] at rest
    have line := Text.isLineRest_line rest
    have taken := List.prefix_iff_eq_take.1
      (List.takeWhile_prefix (fun x => !x.is '\n') (l := d.source.drop last.span.stop))
    rwa [Text.slice, Nat.add_sub_cancel_left, ← List.drop_drop, ← taken]
  · rw [Text.slice, Nat.sub_self, List.take_zero]
    exact .blanks rfl

/-- The prelude of a document that is read goes behind all declarations, behind the rest of
the last one's line at most, and into no element. -/
theorem parse_preludeFollows {source : Text} {d : Document} (read : parse source = .ok d)
    {last : ImportDeclaration} (isLast : d.imports.getLast? = some last) :
    d.PreludeFollows last := by
  have laid := laid_of_parse read
  refine ⟨fun i member => laid.stop_le_preludePoint member, laid.preludePoint_le, ?_,
    isLineRest_preludePoint isLast⟩
  intro e member inside
  rcases laid.preludePoint_clear member with le | le <;> omega

/-- An element in import attributes, one behind the declarations, and a comment in
between. -/
def followedSource : Text :=
  "import a from './a' with \x7bb: <i/>\x7d;\nimport './c'; \t// d\n<e/>;\n"

theorem parse_preludeFollows_commented :
    ∃ d last, parse followedSource = .ok d ∧ d.imports.getLast? = some last ∧
      d.elements.length = 2 ∧ last.span.stop = 49 ∧ d.preludePoint = 55 ∧
      d.PreludeFollows last := by
  have found : ((parse followedSource).toOption.any fun d => decide (d.elements.length = 2 ∧
      d.imports.getLast?.map (·.span.stop) = some 49 ∧ d.preludePoint = 55)) = true := by
    decide +kernel
  obtain ⟨d, read, elements, isLast, point⟩ := exists_ok_of_decide found
  obtain ⟨last, isLast, stop⟩ := Option.map_eq_some_iff.1 isLast
  exact ⟨d, last, read, isLast, elements, stop, point, parse_preludeFollows read isLast⟩

end Document

end StyleBinding
