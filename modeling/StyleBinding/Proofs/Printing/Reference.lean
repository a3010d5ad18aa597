import Mathlib.Data.List.Sort
import StyleBinding.Proofs.Printing.Nesting
import StyleBinding.Proofs.Printing.Revision

/-!
# Printing as rewriting a tree

What a document prints as, told without an order in which edits are taken and
without a place that moves through the source. A stretch renders as its text with
its outermost edited regions replaced, each of them by pieces of text and by other
stretches in their own rendering. Printing carries this out when edited regions
keep apart and what replaces them is found inside of them.
-/

namespace StyleBinding

/-! ## Pieces -/

/-- The text of a piece where stretches of the source read as `part` says. -/
def CodePiece.text (part : Span → Text) : CodePiece → Text
  | .literal text => text
  | .source span => part span

/-- The text of pieces, one after another. -/
def joinPieces (part : Span → Text) (pieces : List CodePiece) : Text :=
  pieces.flatMap (·.text part)

/-- A span without some of the offsets that it starts with. -/
def Span.dropFront (s : Span) (n : Nat) : Span := ⟨min (s.start + n) s.stop, s.stop, by omega⟩

/-- What an attribute is made of: all that it was read from, or a new name and what
stands behind the old one, or a name and generated code in braces. -/
def Attribute.pieces (a : Attribute) : List CodePiece :=
  match a.origin with
  | .generated code => .literal (a.name.getD "None" ++ "=\x7b") :: code ++ [.literal "\x7d"]
  | .unwritten => []
  | .written span sourceName _ =>
    match a.name with
    | none => [.source span]
    | some name =>
      if sourceName = some name then [.source span]
      else [.literal name, .source (span.dropFront (sourceName.getD []).length)]

/-- What an attribute list is made of. -/
def attributePieces (attributes : List Attribute) : List CodePiece :=
  attributes.flatMap fun a => .literal " " :: a.pieces

/-- What a replacement is made of. -/
def Replacement.pieces : Replacement → List CodePiece
  | .literal text => [.literal text]
  | .attributes list => attributePieces list

section Pieces

variable {p : Span → Prop} {stretch : Span → Except PrintError Text} {part : Span → Text}

theorem Span.eq_dropFront {s rest : Span} {n : Nat}
    (h : Span.ofBounds (s.start + n) s.stop = .ok rest) : rest = s.dropFront n := by
  unfold Span.ofBounds at h
  split at h
  · rename_i le
    cases h
    simp only [Span.dropFront, Nat.min_eq_left le]
  · cases h

theorem Attribute.Grounded.of_mem_pieces {a : Attribute} (h : a.Grounded p) {s : Span}
    (isIn : CodePiece.source s ∈ a.pieces) : p s := by
  obtain ⟨name, origin⟩ := a
  cases origin with
  | generated code =>
    refine h s ?_
    simpa [pieces] using isIn
  | unwritten => cases isIn
  | written span sourceName value =>
    cases name with
    | none =>
      cases List.mem_singleton.1 isIn
      exact h
    | some name =>
      simp only [Grounded] at h
      simp only [pieces] at isIn
      split at h
      · rename_i same
        rw [if_pos same] at isIn
        cases List.mem_singleton.1 isIn
        exact h
      · rename_i other
        obtain ⟨rest, bounds, hp⟩ := h
        rw [if_neg other, ← Span.eq_dropFront bounds] at isIn
        obtain rfl : s = rest := by simpa using isIn
        exact hp

theorem printAll_eq_ok {α : Type} {print : α → Except PrintError Text} {form : α → Text}
    {list : List α} (h : ∀ a ∈ list, print a = .ok (form a)) :
    printAll print list = .ok (list.flatMap form) := by
  induction list with
  | nil => rfl
  | cons a rest ih =>
    obtain ⟨first, behind⟩ := List.forall_mem_cons.1 h
    rw [printAll, first]
    simp only [ih behind, List.flatMap_cons]

/-- An attribute prints as its pieces do. -/
theorem Attribute.print_eq_join {a : Attribute} (h : a.Grounded p)
    (each : ∀ s, CodePiece.source s ∈ a.pieces → stretch s = .ok (part s)) :
    a.print stretch = .ok (joinPieces part a.pieces) := by
  obtain ⟨name, origin⟩ := a
  cases origin with
  | unwritten => exact h.elim
  | generated code =>
    have printed : ∀ piece ∈ code, piece.print stretch = .ok (piece.text part) := by
      intro piece member
      cases piece with
      | literal text => rfl
      | source s => exact each s (by simp [pieces, member])
    simp only [print, printAll_eq_ok printed, Except.map, pieces, joinPieces, List.flatMap_append,
      List.flatMap_cons, List.flatMap_nil, CodePiece.text, List.append_assoc, List.append_nil,
      List.cons_append]
    rfl
  | written span sourceName value =>
    cases name with
    | none =>
      rw [print]
      simpa [pieces, joinPieces, CodePiece.text] using each span (List.mem_singleton_self _)
    | some name =>
      simp only [Grounded] at h
      simp only [pieces] at each ⊢
      split at h
      · rename_i same
        rw [if_pos same] at each ⊢
        simp only [print, if_pos same]
        simpa [joinPieces, CodePiece.text] using each span (List.mem_singleton_self _)
      · rename_i other
        obtain ⟨rest, bounds, _⟩ := h
        rw [if_neg other, ← Span.eq_dropFront bounds] at each ⊢
        simp only [print, if_neg other, bounds, each rest (by simp), Except.map, joinPieces,
          List.flatMap_cons, List.flatMap_nil, CodePiece.text, List.append_nil]

theorem Replacement.Grounded.of_mem_pieces {r : Replacement} (h : r.Grounded p) {s : Span}
    (isIn : CodePiece.source s ∈ r.pieces) : p s := by
  cases r with
  | literal text => cases List.mem_singleton.1 isIn
  | attributes list =>
    obtain ⟨a, member, isIn⟩ := List.mem_flatMap.1 isIn
    rcases List.mem_cons.1 isIn with isLiteral | isIn
    · cases isLiteral
    · exact (h a member).of_mem_pieces isIn

/-- A replacement prints as its pieces do. -/
theorem Replacement.print_eq_join {r : Replacement} (h : r.Grounded p)
    (each : ∀ s, CodePiece.source s ∈ r.pieces → stretch s = .ok (part s)) :
    r.print stretch = .ok (joinPieces part r.pieces) := by
  cases r with
  | literal text => simp [print, pieces, joinPieces, CodePiece.text]
  | attributes list =>
    have printed : ∀ a ∈ list, ((a.print stretch).map fun text => .scalar ' ' :: text) =
        .ok (.scalar ' ' :: joinPieces part a.pieces) := by
      intro a member
      rw [Attribute.print_eq_join (h a member) fun s isIn => each s
        (List.mem_flatMap.2 ⟨a, member, List.mem_cons_of_mem _ isIn⟩)]
      rfl
    rw [print, printAll_eq_ok printed, joinPieces, pieces, attributePieces, List.flatMap_assoc]
    rfl

end Pieces

/-! ## Edited regions -/

namespace Document

/-- The regions of a document that are edited, and what takes the place of each: the
gap of an import with a name, the attributes of an element that has changed, and the
place of the prelude. -/
inductive Edited (d : Document) : Span → List CodePiece → Prop
  | gap {i : ImportDeclaration} {name : Text} :
    i ∈ d.imports → i.givenName = some name → Edited d i.gap [.literal (" " ++ name ++ " from ")]
  | element {e : Element} :
    e ∈ d.elements → e.isChanged = true → Edited d e.region (attributePieces e.attributes)
  | prelude : d.prelude ≠ [] → Edited d (.point d.preludePoint) [.literal d.preludeText]

/-- Whether a region lies in a stretch. An empty one at the end of the stretch does not,
unless the source ends there too. -/
def Holds (d : Document) (s region : Span) : Prop :=
  region.Within s ∧ (region.start = s.stop → s.stop = d.source.length)

/-- A region of a stretch that no other edited region of the stretch contains. -/
structure Outermost (d : Document) (s region : Span) : Prop where
  holds : d.Holds s region
  outermost : ∀ other pieces, d.Edited other pieces → d.Holds s other → region.Within other →
    other = region

/-- What a stretch of the source renders as: its text with each outermost edited region
in it replaced once. `part` says what the stretches render as that the replacements
are made of. -/
inductive Renders (d : Document) : Span → Text → Prop
  | splice {s : Span} (part : Span → Text) (replaced : List (Span × Text)) :
    (∀ region new, (region, new) ∈ replaced ↔
      ∃ pieces, d.Edited region pieces ∧ d.Outermost s region ∧ new = joinPieces part pieces) →
    (replaced.Pairwise fun r t => r.1.start < t.1.start ∧ r.1.stop ≤ t.1.start) →
    (∀ region pieces, d.Edited region pieces → d.Outermost s region →
      ∀ p, .source p ∈ pieces → Renders d p (part p)) →
    Renders d s (d.source.splice s.start s.stop replaced)

variable {d : Document}

theorem edited_iff {region : Span} {pieces : List CodePiece} :
    d.Edited region pieces ↔ ∃ e ∈ d.edits, e.region = region ∧ e.replacement.pieces = pieces := by
  constructor
  · intro h
    cases h with
    | @gap i name member named =>
      refine ⟨⟨i.gap, .literal (" " ++ name ++ " from ")⟩, mem_edits.2 ?_, rfl, rfl⟩
      refine List.mem_append_left _ (List.mem_append_left _ (List.mem_filterMap.2 ⟨i, member, ?_⟩))
      rw [ImportDeclaration.edit?, named]
      rfl
    | @element e member changed =>
      refine ⟨⟨e.region, .attributes e.attributes⟩, mem_edits.2 ?_, rfl, rfl⟩
      exact List.mem_append_left _ (List.mem_append_right _
        (List.mem_filterMap.2 ⟨e, member, Element.edit?_eq_some_iff.2 ⟨changed, rfl⟩⟩))
    | prelude nonempty =>
      refine ⟨⟨.point d.preludePoint, .literal d.preludeText⟩, mem_edits.2 ?_, rfl, rfl⟩
      exact List.mem_append_right _
        (Option.mem_toList.2 (preludeEdit?_eq_some_iff.2 ⟨nonempty, rfl⟩))
  · rintro ⟨e, member, rfl, rfl⟩
    rcases List.mem_append.1 (mem_edits.1 member) with member | member
    · rcases List.mem_append.1 member with member | member
      · obtain ⟨i, memberI, isE⟩ := List.mem_filterMap.1 member
        obtain ⟨name, named, rfl⟩ := Option.map_eq_some_iff.1 isE
        exact .gap memberI named
      · obtain ⟨b, memberB, isE⟩ := List.mem_filterMap.1 member
        obtain ⟨changed, rfl⟩ := Element.edit?_eq_some_iff.1 isE
        exact .element memberB changed
    · obtain ⟨nonempty, rfl⟩ := preludeEdit?_eq_some_iff.1 (Option.mem_toList.1 member)
      exact .prelude nonempty

/-! ## The edits taken in a stretch -/

/-- What printing relies on: edited regions keep apart, and their replacements are made
of what lies inside of them. -/
structure Printable (d : Document) : Prop where
  apart : d.edits.Pairwise fun e f => e.region.Apart f.region
  grounded : ∀ e ∈ d.edits, e.Grounded

namespace Printable

variable (h : d.Printable)

include h

theorem eq_or_apart {e f : Edit} (memberE : e ∈ d.edits) (memberF : f ∈ d.edits) :
    e.region = f.region ∨ e.region.Apart f.region := by
  let Clear (e f : Edit) : Prop := e.region = f.region ∨ e.region.Apart f.region
  have forward : d.edits.Pairwise Clear := h.apart.imp .inr
  have backward : d.edits.Pairwise (flip Clear) := h.apart.imp fun apart => .inr apart.symm
  exact forward.forall_of_forall_of_flip (fun _ _ => .inl rfl) backward memberE memberF

/-- The edits that are taken in a stretch, in their order. -/
theorem taken_eq (s : Span) :
    Edit.taken d.source s d.edits s.start =
      (d.edits.filter (Edit.isIn d.source s)).filter
        (Edit.isOutermost (d.edits.filter (Edit.isIn d.source s))) := by
  rw [← Edit.taken_filter (Nat.le_refl _)]
  refine @Edit.taken_eq_filter _ _ [] _ _ (fun e member => ?_)
    ((Edit.sort_ordered d.changes).filter _) ((h.apart.imp Edit.Compatible.of_apart).filter _)
    (fun f member => by cases member) (.inl (Nat.le_refl _))
  simpa using (List.mem_filter.1 member).2

/-- The edits that are taken in a stretch are those of its outermost regions. -/
theorem mem_taken_iff {s : Span} {e : Edit} :
    e ∈ Edit.taken d.source s d.edits s.start ↔ e ∈ d.edits ∧ d.Outermost s e.region := by
  rw [h.taken_eq, List.mem_filter, List.mem_filter, Edit.isOutermost_iff, Edit.isIn_iff, and_assoc]
  refine and_congr_right fun memberE => ⟨fun ⟨inE, outermost⟩ => ⟨inE, ?_⟩, fun ⟨inE, outermost⟩ =>
    ⟨inE, fun f memberF lt => ?_⟩⟩
  · intro other pieces edited inF within
    obtain ⟨f, memberF, rfl, _⟩ := edited_iff.1 edited
    have clear := outermost f (List.mem_filter.2 ⟨memberF, Edit.isIn_iff.2 inF⟩)
    rcases h.eq_or_apart memberE memberF with same | apart
    · exact same.symm
    · have := e.region.le
      unfold Span.Apart at apart
      unfold Span.Within at within
      omega
  · obtain ⟨memberF, inF⟩ := List.mem_filter.1 memberF
    have same := outermost f.region _ (edited_iff.2 ⟨f, memberF, rfl, rfl⟩) (Edit.isIn_iff.1 inF)
    rcases h.eq_or_apart memberE memberF with eq | apart
    · rw [eq] at lt
      exact absurd lt (Nat.lt_irrefl _)
    · by_cases within : e.region.Within f.region
      · rw [same within] at lt
        exact absurd lt (Nat.lt_irrefl _)
      · have := e.region.le
        unfold Span.Apart at apart
        unfold Span.Within at within
        omega

/-- Regions taken in a stretch follow one another, each with a start of its own. -/
theorem taken_pairwise (s : Span) :
    (Edit.taken d.source s d.edits s.start).Pairwise fun e f =>
      e.region.start < f.region.start ∧ e.region.stop ≤ f.region.start := by
  have ordered := @Edit.taken_ordered d.source s d.edits s.start
  have apart : (Edit.taken d.source s d.edits s.start).Pairwise fun e f =>
      e.region.Apart f.region := by
    rw [h.taken_eq]
    exact (h.apart.filter _).filter _
  refine (ordered.and apart).imp fun {e f} ⟨le, apart⟩ => ⟨?_, le⟩
  have := e.region.le
  have := f.region.le
  unfold Span.Apart at apart
  omega

/-- What printing replaces in a stretch: each of its outermost regions, by its pieces. -/
theorem mem_replaced_iff {s region : Span} {part : Span → Text} {new : Text} :
    (region, new) ∈ (Edit.taken d.source s d.edits s.start).map (fun e =>
        (e.region, joinPieces part e.replacement.pieces)) ↔
      ∃ pieces, d.Edited region pieces ∧ d.Outermost s region ∧ new = joinPieces part pieces := by
  rw [List.mem_map]
  constructor
  · rintro ⟨e, taken, same⟩
    cases same
    obtain ⟨member, outermost⟩ := h.mem_taken_iff.1 taken
    exact ⟨_, edited_iff.2 ⟨e, member, rfl, rfl⟩, outermost, rfl⟩
  · rintro ⟨pieces, edited, outermost, rfl⟩
    obtain ⟨e, member, rfl, rfl⟩ := edited_iff.1 edited
    exact ⟨e, h.mem_taken_iff.2 ⟨member, outermost⟩, rfl⟩

/-! ## Printing renders -/

/-- A stretch prints as its text with the outermost regions in it replaced, when the
stretches that their replacements are made of print as `part` says. -/
theorem printStretch_eq_splice {s : Span} {part : Span → Text}
    (parts : ∀ e ∈ Edit.taken d.source s d.edits s.start, ∀ p, .source p ∈ e.replacement.pieces →
      d.printStretch p = .ok (part p)) :
    d.printStretch s = .ok (d.source.splice s.start s.stop
      ((Edit.taken d.source s d.edits s.start).map fun e =>
        (e.region, joinPieces part e.replacement.pieces))) := by
  rw [printStretch_eq h.grounded]
  exact Edit.apply_eq_ok fun e member =>
    Replacement.print_eq_join (h.grounded e (Edit.mem_of_mem_taken member)) (parts e member)

/-- What a stretch renders as is what it prints as. -/
theorem printStretch_of_renders {s : Span} {text : Text} (renders : d.Renders s text) :
    d.printStretch s = .ok text := by
  induction renders with
  | @splice s part replaced exactly ordered parts ih =>
    have printed : ∀ e ∈ Edit.taken d.source s d.edits s.start,
        ∀ p, .source p ∈ e.replacement.pieces → d.printStretch p = .ok (part p) := by
      intro e taken p isIn
      obtain ⟨member, outermost⟩ := h.mem_taken_iff.1 taken
      exact ih e.region _ (edited_iff.2 ⟨e, member, rfl, rfl⟩) outermost p isIn
    rw [h.printStretch_eq_splice printed]
    -- the same replacements, in the only order that they can be in
    let Starts (r t : Span × Text) : Prop := r.1.start < t.1.start
    have : Std.Irrefl Starts := ⟨fun _ => Nat.lt_irrefl _⟩
    have : Std.Antisymm Starts := ⟨fun _ _ lt lt' => absurd lt' (Nat.lt_asymm lt)⟩
    have first : ((Edit.taken d.source s d.edits s.start).map fun e =>
        (e.region, joinPieces part e.replacement.pieces)).Pairwise Starts :=
      List.pairwise_map.2 ((h.taken_pairwise s).imp And.left)
    have second : replaced.Pairwise Starts := ordered.imp And.left
    refine congrArg (fun list => Except.ok (d.source.splice s.start s.stop list))
      (first.eq_of_mem_iff second fun ⟨region, new⟩ => ?_)
    rw [exactly, h.mem_replaced_iff]

/-- Every stretch renders as what it prints as. The induction is on the number of edits
that lie in the stretch, which is smaller for every stretch that a replacement in it is
made of. -/
theorem renders_of_printStretch {s : Span} {text : Text} (prints : d.printStretch s = .ok text) :
    d.Renders s text := by
  induction count : d.edits.countP (Edit.isIn d.source s) using Nat.strong_induction_on
    generalizing s text with
  | _ n ih =>
    let part (p : Span) : Text := (d.printStretch p).toOption.getD []
    have parts (p : Span) : d.printStretch p = .ok (part p) := by
      obtain ⟨new, ok⟩ := printStretch_ok h.grounded p
      simp only [part, ok]
      rfl
    have printed : d.printStretch s = _ := h.printStretch_eq_splice fun e _ p _ => parts p
    rw [prints] at printed
    rw [Except.ok.inj printed]
    refine .splice part _ (fun _ _ => h.mem_replaced_iff)
      (List.pairwise_map.2 (h.taken_pairwise s)) fun region pieces edited outermost p isIn => ?_
    obtain ⟨e, memberE, rfl, rfl⟩ := edited_iff.1 edited
    have taken := h.mem_taken_iff.2 ⟨memberE, outermost⟩
    have inside := (h.grounded e memberE).of_mem_pieces isIn
    exact ih _ (count ▸ Edit.countP_isIn_lt taken inside) (parts p) rfl

/-- A printable document prints as what its source renders as, and as nothing else. -/
theorem print_eq_rendering :
    (∃ text, d.print = .ok text) ∧
      ∀ text, d.Renders (.upTo d.source.length) text ↔ d.print = .ok text :=
  ⟨printStretch_ok h.grounded _, fun _ => ⟨h.printStretch_of_renders, h.renders_of_printStretch⟩⟩

end Printable

end Document

end StyleBinding
