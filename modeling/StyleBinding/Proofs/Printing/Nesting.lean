import StyleBinding.Proofs.Printing.Edits

/-!
# Printing ends

A replacement may print stretches of the source, and the edits in them are
applied once more. When every stretch that a replacement prints lies inside the
region that it replaces and is not the whole of it, each step down leaves at
least one edit behind. The depth of printing then never exceeds the number of
edits: a document prints, and `Document.printStretch` satisfies the equation
that printing has without a bound on the depth.
-/

namespace StyleBinding

/-! ## What printing asks for -/

section Grounded

variable (p : Span → Prop)

/-- Every stretch that printing an attribute asks for has a property. An
attribute that cannot be printed has no property at all. -/
def Attribute.Grounded (a : Attribute) : Prop :=
  match a.origin with
  | .generated code => ∀ s, CodePiece.source s ∈ code → p s
  | .unwritten => False
  | .written span sourceName _ =>
    match a.name with
    | some name =>
      if sourceName = some name then p span
      else ∃ rest, Span.ofBounds (span.start + (sourceName.getD []).length) span.stop = .ok rest ∧
        p rest
    | none => p span

/-- Every stretch that printing a replacement asks for has a property. -/
def Replacement.Grounded : Replacement → Prop
  | .literal _ => True
  | .attributes list => ∀ a ∈ list, a.Grounded p

end Grounded

/-- Two ways to print a stretch give the same text. -/
def PrintsAlike (stretch stretch' : Span → Except PrintError Text) (s : Span) : Prop :=
  ∃ text, stretch s = .ok text ∧ stretch' s = .ok text

section Alike

variable {p : Span → Prop} {stretch stretch' : Span → Except PrintError Text}

theorem printAll_alike {α : Type} {print print' : α → Except PrintError Text} {list : List α}
    (h : ∀ a ∈ list, ∃ text, print a = .ok text ∧ print' a = .ok text) :
    ∃ text, printAll print list = .ok text ∧ printAll print' list = .ok text := by
  induction list with
  | nil => exact ⟨[], rfl, rfl⟩
  | cons a rest ih =>
    obtain ⟨text, ha, ha'⟩ := h a List.mem_cons_self
    obtain ⟨tail, hr, hr'⟩ := ih fun b member => h b (List.mem_cons_of_mem _ member)
    refine ⟨text ++ tail, ?_, ?_⟩
    · rw [printAll, ha]
      dsimp only
      rw [hr]
    · rw [printAll, ha']
      dsimp only
      rw [hr']

theorem CodePiece.print_alike {piece : CodePiece}
    (h : ∀ s, piece = .source s → PrintsAlike stretch stretch' s) :
    ∃ text, piece.print stretch = .ok text ∧ piece.print stretch' = .ok text := by
  cases piece with
  | literal text => exact ⟨text, rfl, rfl⟩
  | source s => exact h s rfl

theorem Attribute.print_alike {a : Attribute} (h : a.Grounded p)
    (alike : ∀ s, p s → PrintsAlike stretch stretch' s) :
    ∃ text, a.print stretch = .ok text ∧ a.print stretch' = .ok text := by
  obtain ⟨name, origin⟩ := a
  cases origin with
  | unwritten => exact h.elim
  | generated code =>
    have each (piece : CodePiece) (member : piece ∈ code) :
        ∃ text, piece.print stretch = .ok text ∧ piece.print stretch' = .ok text :=
      CodePiece.print_alike fun s isSource => alike s (h s (isSource ▸ member))
    obtain ⟨text, hc, hc'⟩ := printAll_alike each
    refine ⟨name.getD "None" ++ "=\x7b" ++ text ++ "\x7d", ?_, ?_⟩
    · simp only [Attribute.print, hc]
      rfl
    · simp only [Attribute.print, hc']
      rfl
  | written span sourceName value =>
    cases name with
    | none => exact alike span h
    | some name =>
      by_cases same : sourceName = some name
      · simp only [Attribute.Grounded, if_pos same] at h
        simp only [Attribute.print, if_pos same]
        exact alike span h
      · simp only [Attribute.Grounded, if_neg same] at h
        obtain ⟨rest, bounds, hp⟩ := h
        obtain ⟨text, hs, hs'⟩ := alike rest hp
        refine ⟨name ++ text, ?_, ?_⟩
        · simp only [Attribute.print, if_neg same, bounds, hs]
          rfl
        · simp only [Attribute.print, if_neg same, bounds, hs']
          rfl

theorem Replacement.print_alike {r : Replacement} (h : r.Grounded p)
    (alike : ∀ s, p s → PrintsAlike stretch stretch' s) :
    ∃ text, r.print stretch = .ok text ∧ r.print stretch' = .ok text := by
  cases r with
  | literal text => exact ⟨text, rfl, rfl⟩
  | attributes list =>
    refine printAll_alike fun a member => ?_
    obtain ⟨text, ha, ha'⟩ := Attribute.print_alike (h a member) alike
    exact ⟨.scalar ' ' :: text, by rw [ha]; rfl, by rw [ha']; rfl⟩

end Alike

/-! ## How deep edits nest -/

/-- An edit whose replacement prints only stretches inside its region. -/
def Edit.Grounded (e : Edit) : Prop := e.replacement.Grounded (·.Inside e.region)

namespace Edit

variable {source : Text} {edits : List Edit}

/-- Whether an edit lies in a stretch, so that it can be taken there. -/
def isIn (source : Text) (stretch : Span) (e : Edit) : Bool :=
  !e.isSkipped source stretch stretch.start

theorem isIn_iff {stretch : Span} {e : Edit} :
    e.isIn source stretch = true ↔ e.region.Within stretch ∧
      (e.region.start = stretch.stop → stretch.stop = source.length) := by
  simp only [isIn, isSkipped, Bool.not_eq_true', Bool.or_eq_false_iff, decide_eq_false_iff_not,
    Bool.and_eq_false_iff, beq_eq_false_iff_ne, bne_eq_false_iff_eq, Span.Within, Nat.not_lt]
  constructor
  · rintro ⟨⟨start, stop⟩, atEnd⟩
    exact ⟨⟨start, stop⟩, fun eq => atEnd.resolve_left (· eq)⟩
  · rintro ⟨⟨start, stop⟩, atEnd⟩
    refine ⟨⟨start, stop⟩, ?_⟩
    by_cases eq : e.region.start = stretch.stop
    · exact .inr (atEnd eq)
    · exact .inl eq

/-- An edit in a stretch lies in every larger stretch. -/
theorem isIn_mono {s t : Span} (h : s.Within t) {e : Edit} (inside : e.isIn source s = true) :
    e.isIn source t = true := by
  obtain ⟨within, atEnd⟩ := isIn_iff.1 inside
  refine isIn_iff.2 ⟨within.trans h, fun eq => ?_⟩
  have := within.2
  have := h.2
  have := e.region.le
  have same : s.stop = t.stop := by omega
  rw [← same]
  exact atEnd (by omega)

theorem mem_taken_isIn {stretch : Span} {e : Edit}
    (h : e ∈ taken source stretch edits stretch.start) : e.isIn source stretch = true := by
  rw [isIn, not_skipped_of_mem_taken h, Bool.not_false]

/-- A stretch inside the region of an edit that is taken holds fewer edits. -/
theorem countP_isIn_lt {stretch s : Span} {e : Edit}
    (h : e ∈ taken source stretch edits stretch.start) (inside : s.Inside e.region) :
    edits.countP (isIn source s) < edits.countP (isIn source stretch) := by
  have eIn := mem_taken_isIn h
  have within := (isIn_iff.1 eIn).1
  have notIn : e.isIn source s = false := by
    cases eIs : e.isIn source s with
    | false => rfl
    | true => exact absurd (isIn_iff.1 eIs).1 inside.2
  have mono : ∀ f : Edit, f.isIn source s = true → f.isIn source stretch = true :=
    fun _ => isIn_mono (inside.1.trans within)
  have member := mem_of_mem_taken h
  clear h
  induction edits with
  | nil => cases member
  | cons f rest ih =>
    rw [List.countP_cons, List.countP_cons]
    rcases List.mem_cons.1 member with rfl | member
    · rw [eIn, notIn, if_pos rfl, if_neg Bool.false_ne_true]
      exact Nat.lt_succ_of_le (List.countP_mono_left fun g _ => mono g)
    · have := ih member
      cases fIn : f.isIn source s with
      | false =>
        rw [if_neg Bool.false_ne_true]
        omega
      | true =>
        rw [if_pos rfl, if_pos (mono f fIn)]
        omega

/-- Printing a stretch with grounded edits succeeds, and a greater depth gives
nothing else. -/
theorem printWithin_alike (grounded : ∀ e ∈ edits, e.Grounded) {depth : Nat} {stretch : Span}
    (deep : edits.countP (isIn source stretch) < depth) :
    PrintsAlike (Document.printWithin source edits depth)
      (Document.printWithin source edits (depth + 1)) stretch := by
  induction depth generalizing stretch with
  | zero => cases deep
  | succ depth ih =>
    have each : ∀ e ∈ taken source stretch edits stretch.start, ∃ text,
        e.replacement.print (Document.printWithin source edits depth) = .ok text ∧
          e.replacement.print (Document.printWithin source edits (depth + 1)) = .ok text := by
      intro e member
      refine Replacement.print_alike (grounded e (mem_of_mem_taken member)) fun s inside => ?_
      have := countP_isIn_lt member inside
      exact ih (by omega)
    have same : ∀ e ∈ taken source stretch edits stretch.start,
        e.replacement.print (Document.printWithin source edits depth) =
          e.replacement.print (Document.printWithin source edits (depth + 1)) := by
      intro e member
      obtain ⟨text, h, h'⟩ := each e member
      rw [h, h']
    have printed : ∀ e ∈ taken source stretch edits stretch.start,
        e.replacement.print (Document.printWithin source edits depth) =
          .ok ((e.replacement.print
            (Document.printWithin source edits depth)).toOption.getD []) := by
      intro e member
      obtain ⟨text, h, _⟩ := each e member
      rw [h]
      rfl
    have ok := apply_eq_ok printed
    refine ⟨_, ok, ?_⟩
    rw [Document.printWithin, ← apply_congr same]
    exact ok

end Edit

/-! ## Printing a stretch of a document -/

namespace Document

/-- A stretch of the source of a document, printed with the edits in it. -/
def printStretch (d : Document) : Span → Except PrintError Text :=
  printWithin d.source d.edits (d.edits.length + 1)

variable {d : Document}

/-- With grounded edits, a stretch prints. -/
theorem printStretch_ok (grounded : ∀ e ∈ d.edits, e.Grounded) (s : Span) :
    ∃ text, d.printStretch s = .ok text := by
  have := List.countP_le_length (p := Edit.isIn d.source s) (l := d.edits)
  obtain ⟨text, h, _⟩ := Edit.printWithin_alike grounded (Nat.lt_succ_of_le this)
  exact ⟨text, h⟩

/-- With grounded edits, what a stretch prints as is what its edits make of it. -/
theorem printStretch_eq (grounded : ∀ e ∈ d.edits, e.Grounded) (s : Span) :
    d.printStretch s =
      Edit.apply d.source (Replacement.print d.printStretch) s d.edits s.start := by
  have := List.countP_le_length (p := Edit.isIn d.source s) (l := d.edits)
  obtain ⟨text, h, h'⟩ := Edit.printWithin_alike grounded (Nat.lt_succ_of_le this)
  rw [printStretch, h, ← h']
  rfl

theorem replacement_ok (grounded : ∀ e ∈ d.edits, e.Grounded) {e : Edit} (member : e ∈ d.edits) :
    ∃ text, e.replacement.print d.printStretch = .ok text := by
  obtain ⟨text, h, _⟩ := Replacement.print_alike (grounded e member) fun s _ => by
    obtain ⟨text, h⟩ := printStretch_ok grounded s
    exact ⟨text, h, h⟩
  exact ⟨text, h⟩

/-- What an edit of a document puts in the place of its region. -/
def editText (d : Document) (e : Edit) : Text :=
  (e.replacement.print d.printStretch).toOption.getD []

theorem replacement_eq (grounded : ∀ e ∈ d.edits, e.Grounded) {e : Edit} (member : e ∈ d.edits) :
    e.replacement.print d.printStretch = .ok (d.editText e) := by
  obtain ⟨text, ok⟩ := replacement_ok grounded member
  rw [editText, ok]
  rfl

/-- The edits that are taken in the whole source of a document. -/
def takenEdits (d : Document) : List Edit :=
  Edit.taken d.source (.upTo d.source.length) d.edits 0

/-- With grounded edits, a document prints as its source with the edits taken in it
carried out. -/
theorem print_eq_splice (grounded : ∀ e ∈ d.edits, e.Grounded) :
    d.print = .ok (d.source.splice 0 d.source.length
      (d.takenEdits.map fun e => (e.region, d.editText e))) := by
  have printed : ∀ e ∈ d.takenEdits, e.replacement.print d.printStretch = .ok (d.editText e) :=
    fun e member => replacement_eq grounded (Edit.mem_of_mem_taken member)
  exact (printStretch_eq grounded _).trans (Edit.apply_eq_ok printed)

end Document

end StyleBinding
