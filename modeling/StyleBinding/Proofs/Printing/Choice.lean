import StyleBinding.Proofs.Pass.Printed
import StyleBinding.Proofs.Printing.Reference

/-!
# Elements with chosen attributes

The attributes of an element can be chosen freely among those that it was read with
and generated ones that copy its values. Whatever is chosen, with whatever names and
statements, the document prints, and its text is that of rewriting a tree. There is one
exception: a spread directly behind the name of an element fills the region of the
element when no other attribute is there, so a changed element that keeps it would
print its own region for ever.
-/

namespace StyleBinding

/-! ## What can be chosen -/

namespace Element

/-- The stretches that generated code of an element may copy: the code of a value, and
the elements of one that is an array when it is read as a style. -/
inductive Offers (source : Text) (e : Element) : Span → Prop
  | code {a : Attribute} {v : AttributeValue} :
    a ∈ e.parsed → a.value = some v → Offers source e v.code
  | elements {a : Attribute} {code elements : Span} :
    a ∈ e.parsed → a.inlineStyle source = .array code elements → Offers source e elements

/-- The attributes that an element may be given: those that it was read with, named ones
among them under another name, and generated ones. -/
inductive Chosen (source : Text) (e : Element) : Attribute → Prop
  | kept {a : Attribute} : a ∈ e.parsed → Chosen source e a
  | renamed {a : Attribute} (name : Text) :
    a ∈ e.parsed → a.name ≠ none → Chosen source e (a.renamed name)
  | generated {name : Text} {code : List CodePiece} :
    (∀ s, .source s ∈ code → e.Offers source s) → Chosen source e (.generate name code)

/-- Whether an element has a spread that fills its region. -/
def CopiesRegion (e : Element) : Prop := ⟨none, .written e.region none none⟩ ∈ e.attributes

instance (e : Element) : Decidable e.CopiesRegion := inferInstanceAs (Decidable (_ ∈ _))

variable {source : Text} {e : Element}

/-- What can be chosen depends on what was read, not on what has been chosen. -/
theorem Chosen.reset {a : Attribute} (h : e.Chosen source a) : e.reset.Chosen source a := by
  cases h with
  | kept member => exact .kept member
  | renamed name member named => exact .renamed name member named
  | generated offers =>
    refine .generated fun s isIn => ?_
    cases offers s isIn with
    | code member value => exact .code member value
    | elements member style => exact .elements member style

/-! ## What is chosen lies inside -/

/-- What lies in a named attribute leaves out the place where the region starts. -/
theorem Laid.inside_of_named (h : e.Laid) {a : Attribute} (member : a ∈ e.parsed)
    (named : a.name ≠ none) {s t : Span} (laid : a.Laid t) (within : s.Within t) :
    s.Inside e.region := by
  obtain ⟨u, laidU, start, stop⟩ := h.laidOut.bounds member
  obtain rfl := laid.span_unique laidU
  refine ⟨within.trans ⟨start, stop⟩, fun whole => ?_⟩
  have := h.named member named laid
  have := within.1
  have := whole.1
  omega

theorem Laid.inside_of_offers (h : e.Laid) {s : Span} (offers : e.Offers source s) :
    s.Inside e.region := by
  have ofValue {a : Attribute} {v : AttributeValue} (member : a ∈ e.parsed)
      (value : a.value = some v) {s : Span} (within : s.Within v.code) : s.Inside e.region := by
    obtain ⟨t, laid, _⟩ := h.laidOut.bounds member
    refine h.inside_of_named member ?_ laid (within.trans (laid.code_within value))
    cases laid with
    | spread | bare => cases value
    | valued => exact Option.some_ne_none _
  cases offers with
  | code member value => exact ofValue member value (.refl _)
  | elements member style =>
    obtain ⟨within, whole, value⟩ := Attribute.inlineStyle_array style
    exact ofValue member value within

/-- A chosen attribute that does not fill the region prints what lies inside of it. -/
theorem Laid.grounded_of_chosen (h : e.Laid) {a : Attribute} (chosen : e.Chosen source a)
    (proper : a ≠ ⟨none, .written e.region none none⟩) : a.Grounded (·.Inside e.region) := by
  cases chosen with
  | @kept _ member =>
    obtain ⟨s, laid, start, stop⟩ := h.laidOut.bounds member
    refine laid.grounded ?_
    cases named : a.name with
    | some name => exact h.inside_of_named member (by simp [named]) laid (.refl s)
    | none =>
      refine ⟨⟨start, stop⟩, fun whole : e.region.Within s => ?_⟩
      obtain rfl := whole.antisymm ⟨start, stop⟩
      cases laid with
      | spread => exact proper rfl
      | bare | valued => cases named
  | renamed name member named =>
    obtain ⟨s, laid, _⟩ := h.laidOut.bounds member
    exact laid.grounded_renamed name fun t within => h.inside_of_named member named laid within
  | generated offers => exact fun s isIn => h.inside_of_offers (offers s isIn)

end Element

/-! ## Printing what was chosen -/

namespace Document

variable {d d' : Document}

/-- A revision with chosen attributes can be printed. -/
theorem Revises.printable {source : Text} (r : d'.Revises d) (h : d.Laid)
    (chosen : ∀ e ∈ d'.elements, ∀ a ∈ e.attributes, e.Chosen source a)
    (proper : ∀ e ∈ d'.elements, e.isChanged = true → ¬ e.CopiesRegion) : d'.Printable where
  apart := r.edits_apart h
  grounded := by
    intro e member
    rcases List.mem_append.1 (mem_edits.1 member) with member | member
    · rcases List.mem_append.1 member with member | member
      · obtain ⟨i, _, isEdit⟩ := List.mem_filterMap.1 member
        obtain ⟨name, _, rfl⟩ := Option.map_eq_some_iff.1 isEdit
        trivial
      · obtain ⟨b, memberB, isEdit⟩ := List.mem_filterMap.1 member
        obtain ⟨changed, rfl⟩ := Element.edit?_eq_some_iff.1 isEdit
        intro a memberA
        refine (h.forest.laid _ (r.reset_mem h memberB)).grounded_of_chosen
          (chosen b memberB a memberA).reset fun fills => ?_
        rw [fills] at memberA
        exact proper b memberB changed memberA
    · obtain ⟨_, rfl⟩ := preludeEdit?_eq_some_iff.1 (Option.mem_toList.1 member)
      trivial

/-- A module can be printed after the pass. -/
theorem Laid.transform_printable (h : d.Laid) (settings : Settings) :
    (d.transform settings).Printable where
  apart := (transform_revises settings d).edits_apart h
  grounded := h.transform_grounded settings

/-- Whatever attributes are chosen for the elements of a module, whatever names are
given to its imports and whatever statements stand behind them, it prints, and as
rewriting a tree says. -/
theorem print_revision_eq_rendering {source : Text} (read : parse source = .ok d)
    (revises : d'.Revises d)
    (chosen : ∀ e ∈ d'.elements, ∀ a ∈ e.attributes, e.Chosen source a)
    (proper : ∀ e ∈ d'.elements, e.isChanged = true → ¬ e.CopiesRegion) :
    (∃ text, d'.print = .ok text) ∧
      ∀ text, d'.Renders (.upTo d'.source.length) text ↔ d'.print = .ok text :=
  (revises.printable (laid_of_parse read) chosen proper).print_eq_rendering

/-! ## Choices -/

end Document

namespace Element

variable (source : Text) (e : Element)

/-- What the attributes of an element have for values, and the elements of an array in
place of the array. -/
def valuePieces : List CodePiece :=
  e.parsed.flatMap fun a =>
    match a.inlineStyle source with
    | .array _ elements => [.source elements]
    | _ => (a.value.map fun v => .source v.code).toList

/-- An element with its attributes in reverse, class attributes under the name for
debugging, and all values once more. -/
def recast : Element :=
  { e with
    attributes := (e.parsed.reverse.map fun a =>
        if a.isNamed Vocabulary.classAttribute then a.renamed Vocabulary.debugAttribute else a) ++
      [.generate "all" (e.valuePieces source)] }

theorem recast_chosen {a : Attribute} (member : a ∈ (e.recast source).attributes) :
    (e.recast source).Chosen source a := by
  rcases List.mem_append.1 member with member | member
  · obtain ⟨b, memberB, rfl⟩ := List.mem_map.1 member
    replace memberB : b ∈ (e.recast source).parsed := List.mem_reverse.1 memberB
    split
    · rename_i isClass
      exact .renamed _ memberB (by simp [Attribute.isNamed_iff.1 isClass])
    · exact .kept memberB
  · rw [List.mem_singleton.1 member]
    refine .generated fun s isIn => ?_
    obtain ⟨b, memberB, isIn⟩ := List.mem_flatMap.1 isIn
    split at isIn
    · rename_i style
      cases List.mem_singleton.1 isIn
      exact .elements memberB style
    · obtain ⟨v, value, same⟩ := Option.map_eq_some_iff.1 (Option.mem_toList.1 isIn)
      cases same
      exact .code memberB value

end Element

namespace Document

variable {d d' : Document}

/-- A document with all of its elements recast. -/
def recastElements (d : Document) : Document :=
  { d with elements := d.elements.map (·.recast d.source) }

/-- A document with all of its elements recast, a name for its first declaration and a
statement behind its imports. -/
def recast (d : Document) : Document :=
  (d.recastElements.giveName 0 (some "s")).withPrelude ["p"]

theorem recast_revises (d : Document) : d.recast.Revises d := by
  have elements : d.recastElements.Revises d := ⟨rfl, rfl, List.map_map ..⟩
  exact (elements.giveName 0 (some "s")).withPrelude ["p"]

/-- An element in an attribute and another one in a style array. -/
def layeredSource : Text :=
  "import './a.css';\n<A b=\x7b<i className='c'/>\x7d style=\x7b[x, <u/>]\x7d/>;\n"

/-- What it prints as when it is recast. -/
def layeredText : Text :=
  "import s from './a.css';\n\np\n<A style=\x7b[x, <u all=\x7b\x7d/>]\x7d " ++
    "b=\x7b<i __class='c' all=\x7b'c'\x7d/>\x7d " ++
    "all=\x7b<i __class='c' all=\x7b'c'\x7d/>x, <u all=\x7b\x7d/>\x7d/>;\n"

theorem print_revision_eq_rendering_layered :
    ∃ d, parse layeredSource = .ok d ∧ d.recast.Revises d ∧
      d.recast.Renders (.upTo d.recast.source.length) layeredText := by
  have found : ((parse layeredSource).toOption.any fun (d : Document) =>
      decide (d.recast.print = .ok layeredText ∧
        ∀ e ∈ d.recast.elements, e.isChanged = true → ¬ e.CopiesRegion)) = true := by
    decide +kernel
  obtain ⟨d, read, both⟩ := (Option.any_eq_true _ _).1 found
  obtain ⟨prints, proper⟩ := of_decide_eq_true both
  have read := parse_of_toOption read
  have chosen : ∀ e ∈ d.recast.elements, ∀ a ∈ e.attributes, e.Chosen layeredSource a := by
    intro e member a memberA
    obtain ⟨b, _, rfl⟩ := List.mem_map.1 member
    rw [← source_of_parse read]
    exact b.recast_chosen d.source memberA
  have rendering := (print_revision_eq_rendering read d.recast_revises chosen proper).2
  exact ⟨d, read, d.recast_revises, (rendering layeredText).2 prints⟩

/-- A spread directly behind the name of an element. -/
def spreadSource : Text := "<a\x7b...b\x7d/>;\n"

/-- A document with one more attribute in its first element. -/
def addAttribute (d : Document) : Document :=
  d.modifyElement 0 (·.insert 1 (.generate "c" [.literal "1"]))

/-- An element that keeps a spread that fills its region cannot be printed with one more
attribute. -/
theorem spreadSource_endless :
    ∃ d, parse spreadSource = .ok d ∧ d.addAttribute.Revises d ∧
      (∀ e ∈ d.addAttribute.elements, ∀ a ∈ e.attributes, e.Chosen spreadSource a) ∧
      d.addAttribute.print = .error .endless := by
  have found : ((parse spreadSource).toOption.any fun (d : Document) =>
      decide (d.addAttribute.print = .error .endless)) = true := by decide +kernel
  obtain ⟨d, read, endless⟩ := (Option.any_eq_true _ _).1 found
  have read := parse_of_toOption read
  have laid := laid_of_parse read
  refine ⟨d, read, (Revises.refl d).modifyElement 0 fun _ => rfl, ?_, of_decide_eq_true endless⟩
  intro e member a memberA
  rcases mem_modifyElement member with kept | ⟨b, changed, rfl⟩
  · rw [(laid.forest.laid e kept).unchanged] at memberA
    exact .kept memberA
  · have unchanged := (laid.forest.laid b changed).unchanged
    rcases List.mem_append.1 memberA with memberA | memberA
    · exact .kept (unchanged ▸ List.mem_of_mem_take memberA)
    · rcases List.mem_cons.1 memberA with rfl | memberA
      · exact .generated fun s isIn => by cases List.mem_singleton.1 isIn
      · exact .kept (unchanged ▸ List.mem_of_mem_drop memberA)

end Document

end StyleBinding
