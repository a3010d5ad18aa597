import StyleBinding.Proofs.Style.Names
import StyleBinding.Proofs.Style.Script
import StyleBinding.Stylesheet.Vocabulary

/-!
# The helper for class values

The helper that the pass puts into a module, as a function of its language. What it
returns for a class value is the merge of the styles of the names in the value, as
`styleOf` has it, but for one difference in what the names are: an empty array or an
empty object counts as true in a script, so the helper takes the class of a key with
such a value, and `styleOf` leaves it out. On all other class values they agree.
-/

namespace StyleBinding.Script

open Vocabulary Entries

/-! ## The function -/

/-- The helper that resolves class values. -/
def getStyle : Function where
  name := getStyleName
  parameter := "value"
  cases := [
    (.equal (.typeOf (.var "value")) (.string "string"),
      .reduce (.split (.var "value")) "style" "name"
        (.choice (.var "name")
          (.assign (.var "style") (.member (.var styleSheetName) (.var "name")))
          (.var "style"))
        .emptyObject),
    (.isArray (.var "value"),
      .reduce (.var "value") "style" "item"
        (.assign (.var "style") (.call getStyleName (.var "item")))
        .emptyObject),
    (.both
        (.both (.unequal (.var "value") .null) (.equal (.typeOf (.var "value")) (.string "object")))
        (.equal (.prototypeOf (.var "value")) (.prototype "Object.prototype")),
      .reduce (.keys (.var "value")) "style" "name"
        (.choice (.member (.var "value") (.var "name"))
          (.assign (.var "style") (.call getStyleName (.var "name")))
          (.var "style"))
        .emptyObject)]
  otherwise := .var "value"

/-- The text that the pass puts in is that of the function. -/
theorem getStyle_print : getStyle.print = getStyleHelper := by decide +kernel

/-- The helper reaches a stylesheet by its name. -/
def globals (sheet : Entries) : Variables := [(styleSheetName, .value (.mapping sheet))]

/-! ## Class values of scripts -/

/-- Whether white space in a text is what separates words. -/
def sharesSpace (t : Text) : Bool := t.all fun c => isSpace c == c.isBlank

/-- Whether a key is a name that is no index. -/
def isName : Key → Bool
  | .scalar (.text t) => sharesSpace t && !isIndex t
  | _ => false

mutual
/-- Whether a value is built from `null`, truth values, finite numbers, texts, arrays
and plain objects, each with its keys apart. -/
def isPlain : Value → Bool
  | .scalar (.text t) => sharesSpace t
  | .scalar (.double (.finite ..)) => true
  | .scalar (.double _) => false
  | .scalar _ => true
  | .list items => arePlain items
  | .tuple items => arePlain items
  | .mapping entries => arePlainEntries entries

/-- Whether all values are plain. -/
def arePlain : List Value → Bool
  | [] => true
  | item :: rest => isPlain item && arePlain rest

/-- Whether all entries are plain and have different names. -/
def arePlainEntries : List (Key × Value) → Bool
  | [] => true
  | (key, value) :: rest =>
    isName key && !Entries.has key rest && isPlain value && arePlainEntries rest
end

/-- Whether a value is an empty array or an empty object. -/
def isHollow : Value → Bool
  | .scalar _ => false
  | .list items => items.isEmpty
  | .tuple items => items.isEmpty
  | .mapping entries => entries.isEmpty

mutual
/-- Whether no object in a value, as far as arrays lead, has an empty array or an
empty object for a condition. -/
def isFilled : Value → Bool
  | .scalar _ => true
  | .list items => areFilled items
  | .tuple items => areFilled items
  | .mapping entries => entries.all fun entry => !isHollow entry.2

/-- Whether no object in values has a hollow condition. -/
def areFilled : List Value → Bool
  | [] => true
  | item :: rest => isFilled item && areFilled rest
end

/-- A plain value counts as true as ever unless it is hollow. -/
theorem isTrue_eq {v : Value} (plain : isPlain v = true) (filled : isHollow v = false) :
    isTrue v = v.isTruthy := by
  rcases v with (_ | _ | _ | (_ | _ | _) | _) | items | items | entries
  case scalar.double.nan => cases plain
  case list | tuple | mapping => exact (congrArg not filled).symm
  all_goals rfl

theorem filter_isTrue {entries : Entries} (plain : arePlainEntries entries = true)
    (filled : ∀ e ∈ entries, isHollow e.2 = false) :
    entries.filter (isTrue ·.2) = entries.filter (·.2.isTruthy) := by
  induction entries with
  | nil => rfl
  | cons e rest ih =>
    simp only [arePlainEntries, Bool.and_eq_true] at plain
    obtain ⟨here, behind⟩ := List.forall_mem_cons.1 filled
    rw [List.filter_cons, List.filter_cons, isTrue_eq plain.1.2 here, ih plain.2 behind]

mutual
/-- Without hollow conditions, a script sees the same names. -/
theorem namesBy_eq : ∀ {v : Value}, isPlain v = true → isFilled v = true →
    v.namesBy isTrue = v.namesBy Value.isTruthy
  | .scalar (.text _), _, _ => rfl
  | .scalar .null, _, _ | .scalar (.boolean _), _, _ | .scalar (.integer _), _, _
  | .scalar (.double _), _, _ => rfl
  | .list items, plain, filled => by
    rw [isPlain] at plain
    rw [isFilled] at filled
    rw [Value.namesBy, Value.namesBy, namesOfAll_eq plain filled]
  | .tuple items, plain, filled => by
    rw [isPlain] at plain
    rw [isFilled] at filled
    rw [Value.namesBy, Value.namesBy, namesOfAll_eq plain filled]
  | .mapping entries, plain, filled => by
    rw [isPlain] at plain
    rw [isFilled, List.all_eq_true] at filled
    rw [Value.namesBy, Value.namesBy, filter_isTrue plain]
    intro e member
    simpa using filled e member

theorem namesOfAll_eq : ∀ {items : List Value}, arePlain items = true → areFilled items = true →
    Value.namesOfAll isTrue items = Value.namesOfAll Value.isTruthy items
  | [], _, _ => rfl
  | item :: rest, plain, filled => by
    rw [arePlain, Bool.and_eq_true] at plain
    rw [areFilled, Bool.and_eq_true] at filled
    rw [Value.namesOfAll, Value.namesOfAll, namesBy_eq plain.1 filled.1,
      namesOfAll_eq plain.2 filled.2]
end

/-! ## The bodies of the folds -/

section Bodies

variable (sheet : Entries) (n : Nat)

/-- The style of a class is assigned, unless the name is empty. -/
def assignClass (d : Datum) (name : Value) : Option Datum :=
  if isTrue name then (Datum.member? (.value (.mapping sheet)) (.value name)).bind d.assign?
  else some d

/-- What a call returns for an item is assigned. -/
def assignCall (d : Datum) (item : Value) : Option Datum :=
  (getStyle.run (globals sheet) n (.value item)).bind d.assign?

/-- What a call returns for a key is assigned if its value counts as true. -/
def assignKey (entries : Entries) (d : Datum) (key : Value) : Option Datum :=
  (Datum.member? (.value (.mapping entries)) (.value key)).bind fun condition =>
    if condition.isTrue then assignCall sheet n d key else some d

theorem run_text (t : Text) :
    getStyle.run (globals sheet) (n + 1) (.value (.text t)) =
      ((splitAtSpace t).map Value.text).foldlM (assignClass sheet) (.value (.mapping [])) := rfl

theorem run_items {v : Value} {items : List Value} (isArray : v = .list items ∨ v = .tuple items) :
    getStyle.run (globals sheet) (n + 1) (.value v) =
      items.foldlM (assignCall sheet n) (.value (.mapping [])) := by
  rcases isArray with rfl | rfl
  · rfl
  · rfl

theorem run_mapping (entries : Entries) :
    getStyle.run (globals sheet) (n + 1) (.value (.mapping entries)) =
      (Datum.keys? (.value (.mapping entries))).bind fun keys => keys.items?.bind fun names =>
        names.foldlM (assignKey sheet n entries) (.value (.mapping [])) := rfl

end Bodies

/-! ## Texts -/

section Texts

variable {sheet : Entries} (styles : sheet.AreStyles)
include styles

theorem assignClass_eq (style : Entries) {name : Text} (nonempty : name ≠ []) :
    assignClass sheet (.value (.mapping style)) (.text name) =
      some (.value (.mapping (style.merge (sheet.styleIn name)))) := by
  have counts : isTrue (.text name) = true := by
    simpa [isTrue, Scalar.isTruthy] using nonempty
  rw [assignClass, if_pos counts, Datum.member?, styleIn]
  rcases found : get? (.scalar (.text name)) sheet with _ | v
  · rfl
  · obtain ⟨e, member, rfl⟩ := get?_mem found
    obtain ⟨added, isStyle⟩ := styles e member
    rw [isStyle]
    rfl

theorem foldlM_assignClass (texts : List Text) (style : Entries) :
    (texts.map Value.text).foldlM (assignClass sheet) (.value (.mapping style)) =
      some (.value (.mapping
        (style.merge ((texts.filter (!·.isEmpty)).flatMap sheet.styleIn)))) := by
  induction texts generalizing style with
  | nil => rfl
  | cons t rest ih =>
    rw [List.map_cons, List.foldlM_cons]
    rcases t with _ | ⟨c, t⟩
    · exact ih style
    · rw [assignClass_eq styles style (List.cons_ne_nil c t), List.filter_cons_of_pos rfl,
        List.flatMap_cons, merge_append]
      exact ih _

/-- The helper returns the style of the words of a text. -/
theorem run_text_eq {t : Text} (shared : sharesSpace t = true) (n : Nat) :
    getStyle.run (globals sheet) (n + 1) (.value (.text t)) =
      some (.value (.mapping (merge [] (t.words.flatMap sheet.styleIn)))) := by
  have spaces : ∀ c ∈ t, isSpace c = c.isBlank := by simpa [sharesSpace] using shared
  rw [run_text, foldlM_assignClass styles, filter_splitAtSpace spaces]

end Texts

/-! ## Objects -/

section Objects

variable {entries : Entries}

theorem distinct_of_arePlainEntries (plain : arePlainEntries entries = true) :
    entries.Distinct := by
  induction entries with
  | nil => exact Distinct.nil
  | cons e rest ih =>
    simp only [arePlainEntries, Bool.and_eq_true, Bool.not_eq_true'] at plain
    exact distinct_cons.2 ⟨plain.1.1.2, ih plain.2⟩

theorem key_of_arePlainEntries (plain : arePlainEntries entries = true) {e : Key × Value}
    (member : e ∈ entries) :
    ∃ t, e.1 = .scalar (.text t) ∧ sharesSpace t = true ∧ isIndex t = false := by
  induction entries with
  | nil => cases member
  | cons first rest ih =>
    simp only [arePlainEntries, Bool.and_eq_true] at plain
    rcases List.mem_cons.1 member with rfl | member
    · have named := plain.1.1.1
      unfold isName at named
      split at named
      · rename_i t isText
        rw [Bool.and_eq_true, Bool.not_eq_true'] at named
        exact ⟨t, isText, named⟩
      · cases named
    · exact ih plain.2 member

/-- The keys of a plain object are its names in order. -/
theorem keys?_eq (plain : arePlainEntries entries = true) :
    Datum.keys? (.value (.mapping entries)) =
      some (.value (.list (entries.map fun e => .text e.1.display))) := by
  have each : entries.mapM (fun e => Datum.keyItem? e.1) =
      some (entries.map fun e => Value.text e.1.display) := by
    have keys := fun e member => key_of_arePlainEntries plain (e := e) member
    clear plain
    induction entries with
    | nil => rfl
    | cons e rest ih =>
      obtain ⟨here, behind⟩ := List.forall_mem_cons.1 keys
      obtain ⟨t, isText, _, noIndex⟩ := here
      rw [List.mapM_cons, ih behind, isText, Datum.keyItem?, noIndex, List.map_cons, isText]
      rfl
  rw [Datum.keys?, each]
  rfl

variable {sheet : Entries} (styles : sheet.AreStyles)
include styles

theorem assignKey_eq (plain : arePlainEntries entries = true) (n : Nat) {e : Key × Value}
    (member : e ∈ entries) (style : Entries) :
    assignKey sheet (n + 1) entries (.value (.mapping style)) (.text e.1.display) =
      some (.value (.mapping (if isTrue e.2 then
        style.merge (e.1.display.words.flatMap sheet.styleIn) else style))) := by
  obtain ⟨t, isText, shared, _⟩ := key_of_arePlainEntries plain member
  have found := (distinct_of_arePlainEntries plain).get?_of_mem member
  rw [isText] at found
  have isName : e.1.display = t := by rw [isText]; rfl
  rw [isName, assignKey, Datum.member?, found]
  cases counts : isTrue e.2 with
  | false => exact if_neg (by rw [Datum.isTrue, counts]; exact Bool.false_ne_true)
  | true =>
    refine (if_pos counts).trans ?_
    rw [assignCall, run_text_eq styles shared, if_pos rfl]
    exact congrArg (fun s => some (Datum.value (.mapping s))) (merge_merge_nil ..)

/-- The styles of the names in the keys whose values count as true are assigned over a
style, one by one. -/
theorem foldlM_assignKey (plain : arePlainEntries entries = true) (n : Nat) {rest : Entries}
    (inside : rest ⊆ entries) (style : Entries) :
    (rest.map fun e => Value.text e.1.display).foldlM (assignKey sheet (n + 1) entries)
        (.value (.mapping style)) =
      some (.value (.mapping
        (style.merge ((Value.namesBy isTrue (.mapping rest)).flatMap sheet.styleIn)))) := by
  rw [Value.namesBy]
  induction rest generalizing style with
  | nil => rfl
  | cons e rest ih =>
    obtain ⟨here, behind⟩ := List.cons_subset.1 inside
    rw [List.map_cons, List.foldlM_cons, assignKey_eq styles plain n here]
    refine (ih behind _).trans ?_
    rw [List.filter_cons]
    cases counts : isTrue e.2 with
    | false => rfl
    | true =>
      rw [if_pos rfl, if_pos rfl, List.flatMap_cons, List.flatMap_append, merge_append]

/-- The helper returns the style of the names in the keys of an object. -/
theorem run_mapping_eq (plain : arePlainEntries entries = true) (n : Nat) :
    getStyle.run (globals sheet) (n + 2) (.value (.mapping entries)) =
      some (.value (.mapping
        (merge [] ((Value.namesBy isTrue (.mapping entries)).flatMap sheet.styleIn)))) := by
  rw [run_mapping, keys?_eq plain]
  exact foldlM_assignKey styles plain n (List.Subset.refl entries) []

end Objects

/-! ## Class values -/

/-- What a class value stands for in a script: itself, or what its names stand for. -/
def answer (sheet : Entries) (v : Value) : Value :=
  if v.isNaming then .mapping (merge [] ((v.namesBy isTrue).flatMap sheet.styleIn)) else v

/-- An array is answered as soon as its items are. -/
theorem returns_of_foldlM {sheet : Entries} {v : Value} {items : List Value} {d : Datum}
    (isArray : v = .list items ∨ v = .tuple items) {depth : Nat}
    (each : ∀ n, depth ≤ n →
      items.foldlM (assignCall sheet n) (.value (.mapping [])) = some d) :
    getStyle.Returns (globals sheet) (.value v) d := by
  refine ⟨depth + 1, fun n le => ?_⟩
  obtain ⟨m, rfl⟩ := Nat.exists_eq_add_of_le' le
  rw [← Nat.add_assoc, run_items sheet (m + depth) isArray]
  exact each (m + depth) (Nat.le_add_left ..)

/-- What a class value stands for is assigned as the styles of its names are. -/
theorem assign?_answer (sheet style : Entries) (v : Value) :
    Datum.assign? (.value (.mapping style)) (.value (answer sheet v)) =
      some (.value (.mapping (style.merge ((v.namesBy isTrue).flatMap sheet.styleIn)))) := by
  rcases v with (_ | _ | _ | _ | t) | items | items | entries
  case scalar.text | list | tuple | mapping =>
    exact congrArg (fun s => some (Datum.value (.mapping s))) (merge_merge_nil ..)
  all_goals rfl

section Values

variable {sheet : Entries}

mutual
/-- The helper returns what a plain class value stands for. -/
theorem getStyle_returns (styles : sheet.AreStyles) : ∀ {v : Value}, isPlain v = true →
    getStyle.Returns (globals sheet) (.value v) (.value (answer sheet v))
  | .scalar (.text t), plain => by
    refine ⟨1, fun n le => ?_⟩
    obtain ⟨m, rfl⟩ := Nat.exists_eq_add_of_le' le
    exact run_text_eq styles plain m
  | .scalar .null, _ | .scalar (.boolean _), _ | .scalar (.integer _), _
  | .scalar (.double (.finite ..)), _ => by
    refine ⟨1, fun n le => ?_⟩
    obtain ⟨m, rfl⟩ := Nat.exists_eq_add_of_le' le
    rfl
  | .list items, plain => by
    rw [isPlain] at plain
    obtain ⟨depth, each⟩ := foldlM_assignCall styles plain
    exact returns_of_foldlM (.inl rfl) fun n le => each n le []
  | .tuple items, plain => by
    rw [isPlain] at plain
    obtain ⟨depth, each⟩ := foldlM_assignCall styles plain
    exact returns_of_foldlM (.inr rfl) fun n le => each n le []
  | .mapping entries, plain => by
    rw [isPlain] at plain
    refine ⟨2, fun n le => ?_⟩
    obtain ⟨m, rfl⟩ := Nat.exists_eq_add_of_le' le
    exact run_mapping_eq styles plain m

/-- The styles of the names in items are assigned over a style. -/
theorem foldlM_assignCall (styles : sheet.AreStyles) : ∀ {items : List Value},
    arePlain items = true → ∃ depth, ∀ n, depth ≤ n → ∀ style : Entries,
      items.foldlM (assignCall sheet n) (.value (.mapping style)) =
        some (.value (.mapping
          (style.merge ((Value.namesOfAll isTrue items).flatMap sheet.styleIn))))
  | [], _ => ⟨0, fun _ _ _ => rfl⟩
  | item :: rest, plain => by
    rw [arePlain, Bool.and_eq_true] at plain
    obtain ⟨depth, returns⟩ := getStyle_returns styles plain.1
    obtain ⟨more, each⟩ := foldlM_assignCall styles plain.2
    refine ⟨max depth more, fun n le style => ?_⟩
    have here := returns n (Nat.le_trans (Nat.le_max_left ..) le)
    have step : assignCall sheet n (.value (.mapping style)) item =
        some (.value (.mapping (style.merge ((item.namesBy isTrue).flatMap sheet.styleIn)))) := by
      rw [assignCall, here]
      exact assign?_answer sheet style item
    rw [List.foldlM_cons, step, Value.namesOfAll, List.flatMap_append, merge_append]
    exact each n (Nat.le_trans (Nat.le_max_right ..) le) _
end

/-- The text that the pass puts in is that of a function which returns, for a plain
class value without hollow conditions, just what the class value stands for. -/
theorem getStyle_agrees (styles : sheet.AreStyles) {v : Value} (plain : isPlain v = true)
    (filled : isFilled v = true) :
    getStyle.print = getStyleHelper ∧ ∃ result, styleOf (.mapping sheet) v = .ok result ∧
      getStyle.Returns (globals sheet) (.value v) (.value result) := by
  refine ⟨getStyle_print, answer sheet v, ?_, getStyle_returns styles plain⟩
  rw [styleOf_eq styles.isStylesheet, answer, namesBy_eq plain filled]

end Values

/-- The class `b` in a key, in an array together with an empty one and a text. -/
def nestedValue : Value := .list [
  .mapping [(.scalar (.text "b"), .scalar (.integer 1)), (.scalar (.text "c"), .text "")],
  .list [], .text " a\t"]

theorem getStyle_agrees_nested :
    twoStyles.AreStyles ∧ isPlain nestedValue = true ∧ isFilled nestedValue = true ∧
      getStyle.Returns (globals twoStyles) (.value nestedValue) (.value (.mapping [
        (.scalar (.text "color"), .text "red"), (.scalar (.text "order"), .scalar (.integer 2)),
        (.scalar (.text "flex"), .scalar (.integer 1))])) := by
  have styles : twoStyles.AreStyles := by simp [twoStyles, Entries.AreStyles]
  have plain : isPlain nestedValue = true := by decide +kernel
  obtain ⟨-, result, isResult, returns⟩ := getStyle_agrees styles plain rfl
  have known : Except.ok result = styleOf (.mapping twoStyles) nestedValue := isResult.symm
  rw [Except.ok.inj known] at returns
  exact ⟨styles, plain, rfl, returns⟩

/-- An empty array as the condition of the class `a`. -/
def hollowValue : Value := .mapping [(.scalar (.text "a"), .list [])]

/-- The helper takes the class that has an empty array for its condition. -/
theorem getStyle_hollow :
    twoStyles.AreStyles ∧ isPlain hollowValue = true ∧
      styleOf (.mapping twoStyles) hollowValue = .ok (.mapping []) ∧
      getStyle.Returns (globals twoStyles) (.value hollowValue) (.value (.mapping [
        (.scalar (.text "color"), .text "red"), (.scalar (.text "flex"), .scalar (.integer 1))])) ∧
      ¬ getStyle.Returns (globals twoStyles) (.value hollowValue) (.value (.mapping [])) := by
  have styles : twoStyles.AreStyles := by simp [twoStyles, Entries.AreStyles]
  have plain : isPlain hollowValue = true := by decide +kernel
  have returns := getStyle_returns styles plain
  refine ⟨styles, plain, rfl, returns, fun other => ?_⟩
  have same := returns.unique other
  cases same

end StyleBinding.Script
