import StyleBinding.Proofs.Pass.Called

/-!
# Attribute lists with class names resolved

Resolving class names does two things to an attribute list, and neither is in the
way of the other. Every class attribute is kept, renamed or left out where it
stands. The last style attribute gives its place up to the generated one, which
goes behind all attributes where there is no style attribute. Whatever else an
element has stays, in its order.
-/

namespace StyleBinding

open Vocabulary

/-! ## Class attributes -/

/-- Attributes with the class attributes among them kept, renamed or left out, as the
settings say. -/
def Settings.treat (settings : Settings) (attributes : List Attribute) : List Attribute :=
  if settings.keepClasses then attributes
  else if settings.isDevelopment then
    attributes.map fun a => if a.isNamed classAttribute then a.renamed debugAttribute else a
  else attributes.filter fun a => !a.isNamed classAttribute

theorem mapClasses_append (f : Attribute → List Attribute) (front back : List Attribute) :
    mapClasses f (front ++ back) = mapClasses f front ++ mapClasses f back :=
  List.flatMap_append

theorem mapClasses_cons_of_class (f : Attribute → List Attribute) {a : Attribute}
    (isClass : a.isNamed classAttribute = true) (rest : List Attribute) :
    mapClasses f (a :: rest) = f a ++ mapClasses f rest := by
  rw [mapClasses, List.flatMap_cons, if_pos isClass, ← mapClasses]

theorem mapClasses_cons_of_other (f : Attribute → List Attribute) {a : Attribute}
    (other : a.isNamed classAttribute = false) (rest : List Attribute) :
    mapClasses f (a :: rest) = a :: mapClasses f rest := by
  rw [mapClasses, List.flatMap_cons, if_neg (by simp [other]), List.singleton_append, ← mapClasses]

/-- Class attributes that become nothing are left out. -/
theorem mapClasses_nil (attributes : List Attribute) :
    mapClasses (fun _ => []) attributes =
      attributes.filter fun a => !a.isNamed classAttribute := by
  induction attributes with
  | nil => rfl
  | cons a rest ih =>
    cases isClass : a.isNamed classAttribute with
    | true =>
      rw [List.filter_cons_of_neg (by simp [isClass]), mapClasses_cons_of_class _ isClass,
        List.nil_append, ih]
    | false =>
      rw [List.filter_cons_of_pos (by simp [isClass]), mapClasses_cons_of_other _ isClass, ih]

theorem mapClasses_classAttributes (settings : Settings) (attributes : List Attribute) :
    mapClasses settings.classAttributes attributes = settings.treat attributes := by
  rw [Settings.treat]
  by_cases keeps : settings.keepClasses = true
  · rw [if_pos keeps, Settings.classAttributes_of_keepClasses keeps, mapClasses_singleton]
  · rw [if_neg keeps]
    by_cases develops : settings.isDevelopment = true
    · rw [if_pos develops, mapClasses, List.map_eq_flatMap]
      refine List.flatMap_congr fun a _ => ?_
      rw [Settings.classAttributes, if_neg keeps, if_pos develops]
      split <;> rfl
    · have none : settings.classAttributes = fun _ => [] := by
        funext a
        rw [Settings.classAttributes, if_neg keeps, if_neg develops]
      rw [if_neg develops, none, mapClasses_nil]

/-- Nothing that becomes of a class attribute is a style attribute. -/
theorem Settings.classAttributes_not_style (settings : Settings) {a b : Attribute}
    (isClass : a.isNamed classAttribute = true) (member : b ∈ settings.classAttributes a) :
    b.isNamed styleAttribute = false := by
  rcases settings.mem_classAttributes member with rfl | rfl
  · exact Attribute.not_isNamed_of_ne (by decide) isClass
  · exact Attribute.not_isNamed_of_ne (by decide) (beq_self_eq_true (some debugAttribute))

/-! ## The last attribute of a name -/

/-- Attributes with another one in place of the last of a name, or behind them when
there is none of that name. -/
inductive LastReplaced (name : Text) (new : Attribute) :
    List Attribute → List Attribute → Prop where
  | inPlace (before : List Attribute) {old : Attribute} {after : List Attribute}
      (named : old.isNamed name = true) (last : ∀ a ∈ after, a.isNamed name = false) :
      LastReplaced name new (before ++ old :: after) (before ++ new :: after)
  | atEnd {attributes : List Attribute} (none : ∀ a ∈ attributes, a.isNamed name = false) :
      LastReplaced name new attributes (attributes ++ [new])

theorem replaceLast_lastReplaced (name : Text) (new : Attribute) (attributes : List Attribute) :
    LastReplaced name new attributes (replaceLast name new attributes) := by
  induction attributes with
  | nil => exact .atEnd (List.forall_mem_nil _)
  | cons a rest ih =>
    rw [replaceLast]
    split
    case isTrue goesOn =>
      -- either a later attribute is the last of the name, or there is none, and not here either
      generalize replaceLast name new rest = replaced at ih
      cases ih with
      | inPlace before named last => exact .inPlace (a :: before) named last
      | atEnd none =>
        have noLater : rest.any (·.isNamed name) = false := by
          simpa using none
        rw [noLater, Bool.false_or, Bool.not_eq_true'] at goesOn
        exact .atEnd (List.forall_mem_cons.2 ⟨goesOn, none⟩)
    case isFalse isLast =>
      simp only [Bool.or_eq_true, Bool.not_eq_true', not_or, Bool.not_eq_false,
        List.any_eq_true, not_exists, not_and, Bool.not_eq_true] at isLast
      exact .inPlace [] isLast.2 isLast.1

namespace LastReplaced

variable {name : Text} {new : Attribute} {attributes replaced : List Attribute}

/-- What is put in place of the last attribute of a name is the last of that name. -/
theorem getLast?_filter (h : LastReplaced name new attributes replaced)
    (named : new.isNamed name = true) :
    (replaced.filter (·.isNamed name)).getLast? = some new := by
  cases h with
  | @inPlace before _ after _ last =>
    have noLater : after.filter (·.isNamed name) = [] :=
      List.filter_eq_nil_iff.2 fun a member => by simp [last a member]
    rw [List.filter_append, List.filter_cons_of_pos named, noLater, List.getLast?_concat]
  | atEnd none =>
    rw [List.filter_append, List.filter_cons_of_pos named, List.filter_nil, List.getLast?_concat]

/-- Treating class attributes leaves the last attribute of another name in its place. -/
theorem mapClasses {f : Attribute → List Attribute} (differ : name ≠ classAttribute)
    (stays : ∀ a b, a.isNamed classAttribute = true → b ∈ f a → b.isNamed name = false)
    (noClass : new.isNamed classAttribute = false)
    (h : LastReplaced name new attributes replaced) :
    LastReplaced name new (mapClasses f attributes) (mapClasses f replaced) := by
  have others {l : List Attribute} (none : ∀ a ∈ l, a.isNamed name = false) :
      ∀ a ∈ StyleBinding.mapClasses f l, a.isNamed name = false := by
    intro a member
    rcases mem_mapClasses member with ⟨member, _⟩ | ⟨c, _, isClass, isIn⟩
    · exact none a member
    · exact stays c a isClass isIn
  cases h with
  | inPlace before named last =>
    have oldNoClass := Attribute.not_isNamed_of_ne differ named
    rw [mapClasses_append, mapClasses_append, mapClasses_cons_of_other f oldNoClass,
      mapClasses_cons_of_other f noClass]
    exact .inPlace _ named (others last)
  | atEnd none =>
    rw [mapClasses_append, mapClasses_cons_of_other f noClass]
    exact .atEnd (others none)

end LastReplaced

/-! ## Resolved elements -/

namespace Element

variable {source : Text} {e : Element} {c : Classification}

/-- An element with a class attribute is classified by its class value, which is that of
the last one. -/
theorem classValue_of_classify (has : ∃ a ∈ e.attributes, a.isNamed classAttribute = true)
    (classified : e.classify source = some c) :
    ∃ a, e.attribute? classAttribute = some a ∧ c.classValue = some (a.classValue source) := by
  obtain ⟨b, member, named⟩ := has
  obtain ⟨a, last⟩ : ∃ a, e.attribute? classAttribute = some a := by
    refine Option.isSome_iff_exists.1 (List.find?_isSome.2 ⟨b, List.mem_reverse.2 member, ?_⟩)
    exact named
  rw [classify, last] at classified
  obtain rfl := Option.some.inj classified
  exact ⟨a, last, rfl⟩

/-- Resolving class names takes class attributes out that name nothing. Otherwise it treats
the class attributes as the settings say and puts one style in, which is in effect
then. Every other attribute stays as it is. -/
theorem resolve_attributes (settings : Settings)
    (has : ∃ a ∈ e.attributes, a.isNamed classAttribute = true)
    (classified : e.classify source = some c) :
    ∃ a, e.attribute? classAttribute = some a ∧ c.classValue = some (a.classValue source) ∧
      ((a.classValue source).isEmpty = true →
        e.resolve settings c =
          { e with attributes := e.attributes.filter fun b => !b.isNamed classAttribute }) ∧
      ((a.classValue source).isEmpty = false →
        ∃ code attributes, c.styleExpression = some code ∧
          e.resolve settings c = { e with attributes } ∧
          LastReplaced styleAttribute (.generate styleAttribute code)
            (settings.treat e.attributes) attributes ∧
          (e.resolve settings c).attribute? styleAttribute =
            some (.generate styleAttribute code)) := by
  obtain ⟨a, last, value⟩ := classValue_of_classify has classified
  refine ⟨a, last, value, fun empty => ?_, fun nonempty => ?_⟩
  · have noCode : c.styleExpression = none := by
      simp [Classification.styleExpression, Classification.resolvable, value, empty]
    rw [resolve, Classification.resolve, value, noCode, ← mapClasses_nil]
  · have hasCode : c.styleExpression = some ((a.classValue source).styleExpression c.style) := by
      simp [Classification.styleExpression, Classification.resolvable, value, nonempty]
    have replaced := replaceLast_lastReplaced styleAttribute
      (.generate styleAttribute ((a.classValue source).styleExpression c.style)) e.attributes
    have treated := replaced.mapClasses (by decide)
      (fun _ _ isClass member => settings.classAttributes_not_style isClass member)
      (generate_style_not_class _)
    rw [mapClasses_classAttributes] at treated
    refine ⟨_, _, hasCode, ?_, treated, ?_⟩
    · rw [resolve, Classification.resolve, value, hasCode]
    · rw [attribute?_eq_getLast?, resolve, Classification.resolve, value, hasCode]
      exact treated.getLast?_filter (beq_self_eq_true _)

/-- Class attributes and styles, two of each, with a spread and another attribute. -/
def doubledSource : Text :=
  "<p className='a' \x7b...r\x7d style='x' id='i' className='b c' style='y' \x7b...s\x7d/>"

theorem resolve_attributes_doubled :
    ∃ d e c code attributes, Document.parse doubledSource = .ok d ∧ e ∈ d.elements ∧
      (∃ a ∈ e.attributes, a.isNamed classAttribute = true) ∧
      e.classify doubledSource = some c ∧ c.styleExpression = some code ∧
      e.resolve (.default "development") c = { e with attributes } ∧
      LastReplaced styleAttribute (.generate styleAttribute code)
        (Settings.treat (.default "development") e.attributes) attributes ∧
      attributes.map (·.name) = [some debugAttribute, none, some styleAttribute,
        some ("id" : Text), some debugAttribute, some styleAttribute, none] := by
  have found : ((Document.parse doubledSource).toOption.any fun d =>
      d.elements.any fun e => (e.classify doubledSource).any fun c =>
        decide ((∃ a ∈ e.attributes, a.isNamed classAttribute = true) ∧
          c.classValue.all (!·.isEmpty) = true ∧
          (e.resolve (.default "development") c).attributes.map (·.name) =
            [some debugAttribute, none, some styleAttribute, some ("id" : Text),
              some debugAttribute, some styleAttribute, none])) = true := by
    decide +kernel
  obtain ⟨d, read, found⟩ := (Option.any_eq_true _ _).1 found
  obtain ⟨e, member, found⟩ := List.any_eq_true.1 found
  obtain ⟨c, classified, found⟩ := (Option.any_eq_true _ _).1 found
  obtain ⟨has, resolvable, names⟩ := of_decide_eq_true found
  obtain ⟨a, _, value, _, styled⟩ := resolve_attributes (.default "development") has classified
  rw [value, Option.all_some, Bool.not_eq_true'] at resolvable
  obtain ⟨code, attributes, hasCode, resolved, replaced, _⟩ := styled resolvable
  rw [resolved] at names
  have read := Document.parse_of_toOption read
  exact ⟨d, e, c, code, attributes, read, member, has, classified, hasCode, resolved, replaced,
    names⟩

end Element

end StyleBinding
