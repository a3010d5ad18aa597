import Mathlib.Data.List.Pairwise
import StyleBinding.Proofs.Pass.Transformed

/-!
# The text after the pass

Printing a transformed document carries out the edits of the pass that start
inside no other: every gap of a declaration that was given a name, the place of
the prelude, and the region of every element with class names that does not
start in the region of another one. Everything else is copied. What is copied keeps
its text but not always its sense: the comment at the end of a style array is copied
without the line break that ends it.
-/

namespace StyleBinding

open Vocabulary

/-! ## Outermost elements -/

/-- Whether an element has class names and does not start in the region of another
element that has some. -/
def Element.isOutermost (elements : List Element) (e : Element) : Bool :=
  e.hasClass && elements.all fun f =>
    !(f.hasClass && f.region.start ≤ e.span.start && e.span.start < f.region.stop)

/-- The gap of a declaration that was given a name, and what it becomes. -/
def ImportDeclaration.namedGap? (i : ImportDeclaration) : Option (Span × Text) :=
  i.binding.map fun (name : Text) => (i.gap, " " ++ name ++ " from ")

namespace Document

variable {d : Document} {settings : Settings} {a : Accessor}

/-- The region of an element starts in that of another if and only if the element
itself does. -/
theorem Laid.starts_inside_iff (h : d.Laid) {e f : Element} (memberE : e ∈ d.elements)
    (memberF : f ∈ d.elements) :
    (f.region.start < e.region.start ∧ e.region.start < f.region.stop) ↔
      (f.region.start ≤ e.span.start ∧ e.span.start < f.region.stop) := by
  let Alike (e f : Element) : Prop :=
    (f.region.start < e.region.start ∧ e.region.start < f.region.stop) ↔
      (f.region.start ≤ e.span.start ∧ e.span.start < f.region.stop)
  have both : d.elements.Pairwise fun e f => Alike e f ∧ Alike f e := by
    refine h.forest.precedes.imp_of_mem fun {b c} memberB memberC precedes => ?_
    have laidB := h.forest.laid b memberB
    have laidC := h.forest.laid c memberC
    have := laidB.start_lt
    have := laidC.start_lt
    have := laidC.stop_lt
    have := c.region.le
    obtain ⟨start, apart⟩ := precedes.regions laidB laidC
    exact ⟨by simp only [Alike]; omega, by simp only [Alike]; omega⟩
  refine List.Pairwise.forall_of_forall_of_flip (R := Alike) (fun b memberB => ?_)
    (both.imp And.left) (both.imp And.right) memberE memberF
  have := (h.forest.laid b memberB).start_lt
  simp only [Alike]
  omega

theorem Laid.gap_outermost (h : d.Laid) {e : Edit}
    (member : e ∈ (d.boundImports settings).imports.filterMap (·.bindingEdit?)) :
    e.isOutermost (d.passEdits settings a) = true := by
  obtain ⟨i, memberI, gap⟩ := h.bindingEdit_mem member
  refine Edit.isOutermost_iff.2 fun f memberF lt => ?_
  rcases List.mem_append.1 memberF with memberF | memberF
  · rcases List.mem_append.1 memberF with memberF | memberF
    · let Apart (e f : Edit) : Prop :=
        f.region.start < e.region.start → f.region.stop ≤ e.region.start
      have ordered := h.bindingEdits_ordered settings
      have forward : List.Pairwise Apart _ := ordered.imp fun {b c} apart lt => by
        have := b.region.le
        omega
      have backward : List.Pairwise (flip Apart) _ :=
        ordered.imp fun {b c} apart (_ : b.region.start < c.region.start) => Nat.le_of_lt apart
      exact forward.forall_of_forall_of_flip (fun b _ lt => absurd lt (Nat.lt_irrefl _)) backward
        member memberF lt
    · obtain ⟨b, memberB, _, region⟩ := restyleEdit_mem memberF
      have := h.gap_clear memberI memberB
      have := i.gap.le
      rw [gap, region] at lt ⊢
      omega
  · rw [List.mem_singleton.1 memberF] at lt ⊢
    have := h.preludePoint_apart.1 i memberI
    have := i.gap.le
    rw [gap] at lt ⊢
    simp only [Span.point] at lt ⊢
    omega

theorem Laid.prelude_outermost (h : d.Laid) {text : Text} :
    (⟨.point d.preludePoint, .literal text⟩ : Edit).isOutermost (d.passEdits settings a) =
      true := by
  refine Edit.isOutermost_iff.2 fun f memberF lt => ?_
  simp only [Span.point] at lt ⊢
  rcases List.mem_append.1 memberF with memberF | memberF
  · rcases List.mem_append.1 memberF with memberF | memberF
    · obtain ⟨i, memberI, gap⟩ := h.bindingEdit_mem memberF
      have := h.preludePoint_apart.1 i memberI
      rw [gap]
      omega
    · obtain ⟨b, memberB, _, region⟩ := restyleEdit_mem memberF
      have := h.preludePoint_apart.2 b memberB
      rw [region] at lt ⊢
      omega
  · rw [List.mem_singleton.1 memberF]
    exact Nat.le_refl _

/-- The edit of an element is an outermost one if and only if the element is. -/
theorem Laid.restyleEdit_outermost (h : d.Laid) {e : Element} (member : e ∈ d.elements)
    (has : e.hasClass = true) :
    (e.restyleEdit d.source settings).isOutermost (d.passEdits settings a) =
      e.isOutermost d.elements := by
  rw [Bool.eq_iff_iff, Edit.isOutermost_iff, Element.isOutermost, has, Bool.true_and,
    List.all_eq_true]
  simp only [Bool.not_eq_true', Bool.and_eq_false_iff, decide_eq_false_iff_not]
  constructor
  · intro outermost f memberF
    cases hasF : f.hasClass with
    | false => exact .inl (.inl rfl)
    | true =>
      have isEdit : f.restyleEdit d.source settings ∈ d.passEdits settings a :=
        List.mem_append_left _ (List.mem_append_right _
          (List.mem_map_of_mem (List.mem_filter.2 ⟨memberF, hasF⟩)))
      have clear := outermost _ isEdit
      have := h.starts_inside_iff member memberF
      simp only [Element.restyleEdit] at clear
      simp only [Bool.true_eq_false, false_or]
      omega
  · intro outermost f memberF lt
    rcases List.mem_append.1 memberF with memberF | memberF
    · rcases List.mem_append.1 memberF with memberF | memberF
      · obtain ⟨i, memberI, gap⟩ := h.bindingEdit_mem memberF
        have := h.gap_clear memberI member
        have := e.region.le
        simp only [Element.restyleEdit] at lt ⊢
        rw [gap] at lt ⊢
        omega
      · obtain ⟨b, memberB, hasB, region⟩ := restyleEdit_mem memberF
        have := h.starts_inside_iff member memberB
        have clear := outermost b memberB
        rw [hasB] at clear
        simp only [Bool.true_eq_false, false_or] at clear
        simp only [Element.restyleEdit] at lt ⊢
        rw [region] at lt ⊢
        omega
    · rw [List.mem_singleton.1 memberF] at lt ⊢
      simp only [Element.restyleEdit, Span.point] at lt ⊢
      omega

/-- The outermost edits of the pass. -/
theorem Laid.filter_passEdits (h : d.Laid) :
    (d.passEdits settings a).filter (Edit.isOutermost (d.passEdits settings a)) =
      (d.boundImports settings).imports.filterMap (·.bindingEdit?) ++
        (d.elements.filter (·.isOutermost d.elements)).map (·.restyleEdit d.source settings) ++
        [⟨.point d.preludePoint, .literal (d.insertedText a)⟩] := by
  have gaps : ((d.boundImports settings).imports.filterMap (·.bindingEdit?)).filter
      (Edit.isOutermost (d.passEdits settings a)) =
        (d.boundImports settings).imports.filterMap (·.bindingEdit?) :=
    List.filter_eq_self.2 fun e member => h.gap_outermost member
  have elements : ((d.elements.filter (·.hasClass)).map
      (·.restyleEdit d.source settings)).filter (Edit.isOutermost (d.passEdits settings a)) =
        (d.elements.filter (·.isOutermost d.elements)).map (·.restyleEdit d.source settings) := by
    rw [List.filter_map, List.filter_filter]
    refine congrArg _ (List.filter_congr fun e member => ?_)
    cases has : e.hasClass with
    | true => rw [Bool.and_true, Function.comp, h.restyleEdit_outermost member has]
    | false => rw [Bool.and_false, Element.isOutermost, has, Bool.false_and]
  have prelude : ([⟨.point d.preludePoint, .literal (d.insertedText a)⟩] : List Edit).filter
      (Edit.isOutermost (d.passEdits settings a)) =
        [⟨.point d.preludePoint, .literal (d.insertedText a)⟩] := by
    rw [List.filter_cons_of_pos h.prelude_outermost, List.filter_nil]
  conv => lhs; arg 2; rw [passEdits]
  rw [List.filter_append, List.filter_append, gaps, elements, prelude]

/-- The edits taken in the whole source are the outermost ones, in some order. -/
theorem Laid.taken_perm (h : d.Laid) (bound : (d.boundImports settings).accessor? = some a) :
    (d.transform settings).takenEdits.Perm
      ((d.boundImports settings).imports.filterMap (·.bindingEdit?) ++
        (d.elements.filter (·.isOutermost d.elements)).map (·.restyleEdit d.source settings) ++
        [⟨.point d.preludePoint, .literal (d.insertedText a)⟩]) := by
  have sorted := Edit.sort_perm (d.passEdits settings a)
  have revises := transform_revises settings d
  have apart := revises.apart h
  have bounded := revises.edits_le h
  rw [h.changes_transform bound] at apart bounded
  rw [transform_source] at bounded
  have compatible := (sorted.pairwise_iff fun compat => Edit.Compatible.symm compat).2
    (apart.imp Edit.Compatible.of_apart)
  have within (e : Edit) (member : e ∈ Edit.sort (d.passEdits settings a)) :
      e.isSkipped d.source (.upTo d.source.length) 0 = false := by
    have isIn : e.isIn d.source (.upTo d.source.length) = true :=
      Edit.isIn_iff.2 ⟨⟨Nat.zero_le _, bounded e (sorted.mem_iff.1 member)⟩, fun _ => rfl⟩
    rw [Edit.isIn, Bool.not_eq_true'] at isIn
    exact isIn
  have taken : Edit.taken d.source (.upTo d.source.length)
      (Edit.sort (d.passEdits settings a)) 0 =
        (Edit.sort (d.passEdits settings a)).filter
          (Edit.isOutermost ([] ++ Edit.sort (d.passEdits settings a))) :=
    Edit.taken_eq_filter within (Edit.sort_ordered _) compatible
      (fun f member => by cases member) (.inl (Nat.le_refl _))
  have same : Edit.isOutermost (Edit.sort (d.passEdits settings a)) =
      Edit.isOutermost (d.passEdits settings a) := by
    funext e
    rw [Bool.eq_iff_iff, Edit.isOutermost_iff, Edit.isOutermost_iff]
    simp only [sorted.mem_iff]
  rw [takenEdits, h.edits_transform bound]
  simp only [transform_source]
  rw [taken, List.nil_append, same, ← h.filter_passEdits]
  exact sorted.filter _

/-! ## Printing succeeds -/

/-- A document that nothing has been changed in has no edits. -/
theorem Laid.edits_eq_nil (h : d.Laid) : d.edits = [] := by
  have imports : d.imports.filterMap (·.edit?) = [] := by
    refine List.filterMap_eq_nil_iff.2 fun i member => ?_
    rw [ImportDeclaration.edit?, ImportDeclaration.givenName, (h.declared.laid i member).unnamed]
    rfl
  have elements : d.elements.filterMap (·.edit?) = [] := by
    refine List.filterMap_eq_nil_iff.2 fun e member => ?_
    rw [Element.edit?, Element.isChanged, (h.forest.laid e member).unchanged, bne_self_eq_false,
      if_neg Bool.false_ne_true]
  rw [edits, imports, elements, preludeEdit?, h.noPrelude]
  rfl

/-- What the edits of a transformed document print lies inside of them. -/
theorem Laid.transform_grounded (h : d.Laid) (settings : Settings) :
    ∀ e ∈ (d.transform settings).edits, e.Grounded := by
  cases bound : (d.boundImports settings).accessor? with
  | none =>
    rw [transform_of_none bound, h.edits_eq_nil]
    intro e member
    cases member
  | some a =>
    rw [h.edits_transform bound]
    exact fun e member => h.grounded e ((Edit.sort_perm _).mem_iff.1 member)

/-- A transformed document prints. -/
theorem Laid.print_transform_ok (h : d.Laid) (settings : Settings) :
    ∃ text, (d.transform settings).print = .ok text :=
  printStretch_ok (h.transform_grounded settings) _

/-- What the guards of the pass rest on: the bounds of every span that is built are
in order, every attribute that is printed has source text or code, and an accessor
is asked for only when there are bindings. -/
structure Guarded (settings : Settings) (d : Document) : Prop where
  regions : ∀ e ∈ d.elements, Attribute.LaidOut e.region.start e.parsed e.region.stop
  arrays : ∀ e ∈ d.elements, ∀ c code elements, e.classify d.source = some c →
    c.style = .array code elements → elements.Within code
  attributes : ∀ e ∈ (d.transform settings).elements, ∀ a ∈ e.attributes,
    a.origin ≠ .unwritten ∧ ∀ span name value, a.origin = .written span name value →
      span.start + (name.getD []).length ≤ span.stop
  gaps : ∀ i ∈ (d.transform settings).imports,
    i.gap.start = i.span.start + 6 ∧ i.gap.stop = i.path.start
  prelude : (d.transform settings).preludePoint ≤ d.source.length
  accessor : (d.boundImports settings).accessor? = none ↔ (d.boundImports settings).bindings = []

theorem Laid.guarded (h : d.Laid) (settings : Settings) : d.Guarded settings where
  regions := fun e member => (h.forest.laid e member).laidOut
  arrays := fun _ _ _ _ _ hc style => Element.classify_array hc style
  attributes := by
    cases bound : (d.boundImports settings).accessor? with
    | none =>
      rw [transform_of_none bound]
      intro e memberE a member
      have laid := h.forest.laid e memberE
      rw [laid.unchanged] at member
      obtain ⟨s, laidA, _⟩ := laid.laidOut.bounds member
      exact ⟨laidA.origin_ne_unwritten, fun _ _ _ => laidA.name_le⟩
    | some a =>
      rw [transform_of_accessor bound]
      intro _ isRestyled b member
      obtain ⟨e, memberE, rfl⟩ := List.mem_map.1 isRestyled
      exact Element.restyle_written (h.forest.laid e memberE) member
  gaps := fun i member => by
    have laid := h.declared.laid i.unbound ((transform_revises settings d).unbound_mem h member)
    exact ⟨laid.gap_start, laid.gap_stop⟩
  prelude := (transform_revises settings d).preludePoint_eq ▸ h.preludePoint_le
  accessor := BoundImports.accessor?_eq_none_iff

/-- Whatever module is read, the pass over it prints, its guards hold, and grouping
the tokens of an expression fails for no other reason than their brackets and
commas. -/
theorem transformText_ok {source : Text} {d : Document} (h : parse source = .ok d)
    (settings : Settings) :
    (∃ text, transformText settings source = .ok text) ∧ d.Guarded settings ∧
      ∀ text tokens, Shape.tokens? (.ofSource text) = some tokens →
        (Shape.group? [] [] tokens).isSome = Shape.balanced [] tokens := by
  have laid := laid_of_parse h
  refine ⟨?_, laid.guarded settings, ?_⟩
  · obtain ⟨text, prints⟩ := laid.print_transform_ok settings
    exact ⟨text, by rw [transformText, h]; simp only [prints]⟩
  · intro text tokens isTokens
    exact Shape.group?_isSome (Shape.tokens?_laid isTokens) fun f member => by cases member

/-- An element inside an attribute of another one. -/
def nestedSource : Text := "import './a.css';<A b=\x7b<i className='c'/>\x7d className='d'/>"

theorem nestedSource_bound :
    ∃ d a, parse nestedSource = .ok d ∧ (d.boundImports (.default [])).accessor? = some a := by
  have bound : ((parse nestedSource).toOption.bind fun d =>
      (d.boundImports (.default [])).accessor?).isSome = true := by decide +kernel
  obtain ⟨a, found⟩ := Option.isSome_iff_exists.1 bound
  obtain ⟨d, read, found⟩ := Option.bind_eq_some_iff.1 found
  exact ⟨d, a, parse_of_toOption read, found⟩

theorem transformText_ok_nested :
    ∃ d, parse nestedSource = .ok d ∧
      (∃ text, transformText (.default []) nestedSource = .ok text) ∧
      d.Guarded (.default []) := by
  obtain ⟨d, _, read, _⟩ := nestedSource_bound
  obtain ⟨prints, guarded, _⟩ := transformText_ok read (.default [])
  exact ⟨d, read, prints, guarded⟩

/-! ## The source with replacements -/

/-- The attributes of an element as the pass prints them. -/
def printAttributes (settings : Settings) (d : Document) (e : Element) :
    Except PrintError Text :=
  (Replacement.attributes (e.restyle d.source settings).attributes).print
    (d.transform settings).printStretch

/-- `replaced` holds, in the order of the source, what the pass replaces and what it
puts there: the gaps of the declarations that it names, the regions of the
outermost elements with class names, and the place of the prelude. `form` gives
the attributes that elements with class names are printed with. -/
structure Replaces (settings : Settings) (a : Accessor) (d : Document) (form : Element → Text)
    (replaced : List (Span × Text)) : Prop where
  printed : ∀ e ∈ d.elements, e.hasClass = true → d.printAttributes settings e = .ok (form e)
  ordered : replaced.Pairwise fun r s => r.1.stop ≤ s.1.start
  exactly : replaced.Perm
    ((d.boundImports settings).imports.filterMap (·.namedGap?) ++
      (d.elements.filter (·.isOutermost d.elements)).map (fun e => (e.region, form e)) ++
      [(.point d.preludePoint, d.insertedText a)])

/-- What a transformed document is printed from is what the pass replaces. -/
theorem Laid.replaces (h : d.Laid) (bound : (d.boundImports settings).accessor? = some a) :
    ∃ form, d.Replaces settings a form ((d.transform settings).takenEdits.map fun e =>
      (e.region, (d.transform settings).editText e)) := by
  have grounded := h.transform_grounded settings
  refine ⟨fun e => (d.transform settings).editText (e.restyleEdit d.source settings), ?_, ?_, ?_⟩
  · intro e member has
    refine replacement_eq grounded (e := e.restyleEdit d.source settings) ?_
    rw [h.edits_transform bound]
    refine (Edit.sort_perm _).mem_iff.2 (List.mem_append_left _ (List.mem_append_right _ ?_))
    exact List.mem_map_of_mem (List.mem_filter.2 ⟨member, has⟩)
  · exact List.pairwise_map.2 (Edit.taken_ordered (d.transform settings).edits 0)
  · have same := (h.taken_perm bound).map fun e => (e.region, (d.transform settings).editText e)
    rw [List.map_append, List.map_append, List.map_filterMap, List.map_map] at same
    have gaps : (d.boundImports settings).imports.filterMap
        (fun i => i.bindingEdit?.map fun e => (e.region, (d.transform settings).editText e)) =
          (d.boundImports settings).imports.filterMap (·.namedGap?) := by
      refine List.filterMap_congr fun i _ => ?_
      rw [ImportDeclaration.bindingEdit?, Option.map_map]
      rfl
    rw [gaps] at same
    exact same

/-- The pass carries out its replacements and copies everything else. A gap lies
between the keyword and the path of a declaration, and an element is changed if
and only if it has a class attribute. -/
theorem transformText_eq_splice {source : Text} {d : Document} {a : Accessor}
    {settings : Settings} (h : parse source = .ok d)
    (bound : (d.boundImports settings).accessor? = some a) :
    ∃ form replaced, d.Replaces settings a form replaced ∧
      transformText settings source = .ok (source.splice 0 source.length replaced) ∧
      (∀ i ∈ (d.boundImports settings).imports,
        source.slice i.span.start i.gap.start = ("import" : Text) ∧ i.gap.stop = i.path.start) ∧
      ∀ e ∈ d.elements, (e.restyle source settings).isChanged = e.hasClass := by
  have laid := laid_of_parse h
  obtain rfl := source_of_parse h
  obtain ⟨form, replaces⟩ := laid.replaces bound
  refine ⟨form, _, replaces, ?_, ?_, ?_⟩
  · have printed := print_eq_splice (laid.transform_grounded settings)
    rw [transform_source] at printed
    rw [transformText, h]
    simp only [printed]
  · intro i member
    have laidI := laid.declared.laid _ (laid.unbound_mem member)
    exact ⟨laidI.keyword, laidI.gap_stop⟩
  · exact fun e member => Element.isChanged_restyle (laid.forest.laid e member) _ settings

theorem transformText_eq_splice_nested :
    ∃ d a, parse nestedSource = .ok d ∧ (d.boundImports (.default [])).accessor? = some a ∧
      ∃ form replaced, d.Replaces (.default []) a form replaced ∧
        transformText (.default []) nestedSource =
          .ok (nestedSource.splice 0 nestedSource.length replaced) := by
  obtain ⟨d, a, read, bound⟩ := nestedSource_bound
  obtain ⟨form, replaced, replaces, prints, _⟩ := transformText_eq_splice read bound
  exact ⟨d, a, read, bound, form, replaced, replaces, prints⟩

/-- A style array whose last element has a line comment behind it. -/
def commentedSource : Text :=
  "import './a.css';\n<b style=\x7b[a, // b\n]\x7d className='x'/>;\n"

/-- The line break that ends a comment is a blank at the end of a style array, and
without it the comment covers the closing brackets. -/
theorem commentedSource_output_refused :
    ∃ output, transformText (.default []) commentedSource = .ok output ∧
      (parse output).toOption = none := by
  have bad : ((transformText (.default []) commentedSource).toOption.any fun output =>
      (parse output).toOption.isNone) = true := by decide +kernel
  cases h : transformText (.default []) commentedSource with
  | error e =>
    rw [h] at bad
    cases bad
  | ok output =>
    rw [h] at bad
    exact ⟨output, rfl, Option.isNone_iff_eq_none.1 bad⟩

end Document

end StyleBinding
