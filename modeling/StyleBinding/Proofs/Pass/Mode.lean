import StyleBinding.Proofs.Pass.Attributes

/-!
# What the mode changes

Settings decide which imports are stylesheets and what becomes of class attributes.
Under settings of the same extensions the pass binds the same imports and needs the
same helpers, since neither looks at the mode, and it puts the same style into every
element. A class attribute that is kept or renamed still tells by its name in the
source that it is one; without those attributes the documents do not differ.
-/

namespace StyleBinding

open Vocabulary

/-! ## Imports -/

/-- Which paths name stylesheets depends on the extensions alone, in any order. -/
theorem Settings.isStylesheet_congr {s t : Settings}
    (same : ∀ extension, extension ∈ s.extensions ↔ extension ∈ t.extensions) :
    s.isStylesheet = t.isStylesheet := by
  funext path
  rw [isStylesheet, isStylesheet, Bool.eq_iff_iff, List.contains_iff_mem, List.contains_iff_mem]
  exact same _

theorem BoundImports.ofImports_congr {s t : Settings} (same : s.isStylesheet = t.isStylesheet)
    (taken bound : List Text) (imports : List ImportDeclaration) :
    ofImports s taken bound imports = ofImports t taken bound imports := by
  induction imports generalizing taken bound with
  | nil => rfl
  | cons i rest ih => simp only [ofImports, same, ih]

/-! ## Elements -/

namespace Element

/-- An element without the attributes that hold class names in the source. -/
def withoutClasses (e : Element) : Element :=
  { e with attributes := e.attributes.filter fun a => a.sourceName != some classAttribute }

end Element

/-- An attribute is read under the name that it has in the source. -/
theorem Attribute.Laid.sourceName_eq {a : Attribute} {s : Span} (h : a.Laid s) :
    a.sourceName = a.name := by
  cases h <;> rfl

/-- Treating class attributes changes nothing where they and what they become are hidden. -/
theorem filter_mapClasses_of_hidden {p : Attribute → Bool} {f : Attribute → List Attribute}
    {attributes : List Attribute}
    (hidden : ∀ a ∈ attributes, a.isNamed classAttribute = true →
      p a = false ∧ ∀ b ∈ f a, p b = false) :
    (mapClasses f attributes).filter p = attributes.filter p := by
  induction attributes with
  | nil => rfl
  | cons a rest ih =>
    have behind := ih fun b member => hidden b (List.mem_cons_of_mem a member)
    cases isClass : a.isNamed classAttribute with
    | true =>
      obtain ⟨hiddenA, becomes⟩ := hidden a List.mem_cons_self isClass
      have nothing : (f a).filter p = [] :=
        List.filter_eq_nil_iff.2 fun b member => by simp [becomes b member]
      rw [List.filter_cons_of_neg (by simp [hiddenA]), mapClasses_cons_of_class f isClass,
        List.filter_append, nothing, List.nil_append, behind]
    | false =>
      rw [mapClasses_cons_of_other f isClass, List.filter_cons, List.filter_cons, behind]

namespace Element

variable {e : Element}

/-- The attributes of an element with the style that its class names are resolved to,
before anything is done about the class attributes. -/
def styled (source : Text) (e : Element) : List Attribute :=
  match (e.classValue? source).filter (!·.isEmpty) with
  | none => e.attributes
  | some v =>
    replaceLast styleAttribute
      (.generate styleAttribute (v.styleExpression (e.inlineStyle source))) e.attributes

/-- A class attribute of a styled element is one that was read. -/
theorem Laid.sourceName_of_styled (h : e.Laid) {source : Text} {a : Attribute}
    (member : a ∈ e.styled source) (isClass : a.isNamed classAttribute = true) :
    a.sourceName = some classAttribute := by
  have wasRead : a ∈ e.attributes := by
    unfold styled at member
    split at member
    · exact member
    · rcases mem_replaceLast member with rfl | member
      · rw [generate_style_not_class] at isClass
        cases isClass
      · exact member
  obtain ⟨s, laid, _⟩ := h.laidOut.bounds (h.unchanged ▸ wasRead)
  rw [laid.sourceName_eq]
  exact Attribute.isNamed_iff.1 isClass

/-- Resolving class names treats the class attributes of a styled element. -/
theorem restyle_eq_mapClasses (source : Text) (settings : Settings) (e : Element) :
    ∃ f, (∀ a, ∀ b ∈ f a, b = a ∨ b = a.renamed debugAttribute) ∧
      e.restyle source settings = { e with attributes := mapClasses f (e.styled source) } := by
  have same : e.restyle source settings =
      { e with attributes := (e.restyle source settings).attributes } := by
    unfold restyle
    split <;> rfl
  rw [same, restyle_attributes, styled]
  cases e.classValue? source with
  | none =>
    refine ⟨fun a => [a], fun a b member => .inl (List.mem_singleton.1 member), ?_⟩
    rw [mapClasses_singleton]
    rfl
  | some v =>
    dsimp only
    rw [Option.filter_some]
    cases v.isEmpty with
    | true => exact ⟨fun _ => [], nofun, rfl⟩
    | false =>
      exact ⟨settings.classAttributes, fun a b member => settings.mem_classAttributes member, rfl⟩

/-- Without its class attributes, a restyled element is the styled one, whatever the
settings. -/
theorem Laid.withoutClasses_restyle (h : e.Laid) (source : Text) (settings : Settings) :
    (e.restyle source settings).withoutClasses =
      { e with attributes := e.styled source }.withoutClasses := by
  obtain ⟨f, origins, restyled⟩ := restyle_eq_mapClasses source settings e
  rw [restyled, withoutClasses, withoutClasses]
  refine congrArg (fun attributes => { e with attributes }) (filter_mapClasses_of_hidden ?_)
  intro a member isClass
  have isRead := h.sourceName_of_styled member isClass
  refine ⟨by simp [isRead], fun b isIn => ?_⟩
  -- a class attribute has its name in the source under another name as well
  have same : b.sourceName = a.sourceName := by
    rcases origins a b isIn with rfl | rfl <;> rfl
  simp [same, isRead]

end Element

/-! ## Documents -/

namespace Document

variable {d : Document}

/-- Under settings of the same extensions the pass gives the same names to imports, puts in the
same statements, and makes the same of every element but for its class attributes. -/
theorem transform_withoutClasses {source : Text} (read : parse source = .ok d) {s t : Settings}
    (same : ∀ extension, extension ∈ s.extensions ↔ extension ∈ t.extensions) :
    (d.transform s).imports = (d.transform t).imports ∧
      (d.transform s).prelude = (d.transform t).prelude ∧
      (d.transform s).elements.map (·.withoutClasses) =
        (d.transform t).elements.map (·.withoutClasses) := by
  have bindsSame : d.boundImports s = d.boundImports t :=
    BoundImports.ofImports_congr (Settings.isStylesheet_congr same) _ _ _
  cases bound : (d.boundImports t).accessor? with
  | none =>
    rw [transform_of_none bound, transform_of_none (bindsSame ▸ bound)]
    exact ⟨rfl, rfl, rfl⟩
  | some a =>
    rw [transform_of_accessor bound, transform_of_accessor (bindsSame ▸ bound)]
    refine ⟨congrArg BoundImports.imports bindsSame, rfl, ?_⟩
    rw [restyleUnder, restyleUnder, List.map_map, List.map_map]
    refine List.map_congr_left fun e member => ?_
    have laid := (laid_of_parse read).forest.laid e member
    exact (laid.withoutClasses_restyle d.source s).trans
      (laid.withoutClasses_restyle d.source t).symm

/-- Class names of both kinds under two stylesheets. -/
def modalSource : Text :=
  "import './a.css';\nimport './b.less';\n" ++
    "<p className='a' \x7b...r\x7d className=\x7bx\x7d><b className=''/></p>;\n"

/-- Settings that keep class attributes. -/
def keepingSettings : Settings := ⟨true, [".css", ".less"], []⟩

/-- Settings that rename class attributes, of the same extensions. -/
def renamingSettings : Settings := ⟨false, [".less", ".css"], "development"⟩

theorem transform_withoutClasses_modes :
    ∃ d, parse modalSource = .ok d ∧
      (d.transform keepingSettings).prelude = (d.transform renamingSettings).prelude ∧
      (d.transform keepingSettings).elements.map (·.withoutClasses) =
        (d.transform renamingSettings).elements.map (·.withoutClasses) ∧
      (d.transform keepingSettings).elements ≠ (d.transform renamingSettings).elements := by
  obtain ⟨d, read, differ⟩ := exists_ok_of_decide (x := parse modalSource)
    (p := fun d => (d.transform keepingSettings).elements ≠
      (d.transform renamingSettings).elements) (by decide +kernel)
  obtain ⟨_, prelude, elements⟩ := transform_withoutClasses read
    (s := keepingSettings) (t := renamingSettings) fun _ => List.Perm.mem_iff (.swap _ _ _)
  exact ⟨d, read, prelude, elements, differ⟩

end Document

end StyleBinding
