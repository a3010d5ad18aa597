import Mathlib.Data.List.Forall2
import StyleBinding.Proofs.Source.Encoding
import StyleBinding.Proofs.Style.Names
import StyleBinding.Stylesheet.StyleExpression

/-!
# The meaning of generated code

The code that takes the place of static class names is read back symbol by symbol
and evaluated: a literal in brackets is looked up in the stylesheet, an assignment
puts its arguments over the first one from left to right, and an array stands for
what its elements are merged to. What is copied from the source stays one symbol,
which stands for any styles at all. The code then means what resolving the class
text at run time gives, with the inline style put over it.
-/

namespace StyleBinding

open Entries

/-! ## Symbols -/

/-- A symbol of generated code: a code point, or a part of the source. -/
inductive Symbol where
  | point (c : CodePoint)
  | source (span : Span)
deriving DecidableEq

namespace Symbol

/-- The symbols of a text. -/
def ofText (t : Text) : List Symbol := t.map point

/-- The symbols of a piece of code. -/
def ofPiece : CodePiece → List Symbol
  | .literal t => ofText t
  | .source span => [.source span]

/-- The symbols of code. -/
def ofCode (code : List CodePiece) : List Symbol := code.flatMap ofPiece

/-- The code points at the head of symbols. -/
def headText : List Symbol → Text
  | point c :: rest => c :: headText rest
  | _ => []

/-- What stands behind a text at the head of symbols. -/
def behind? (t : Text) (symbols : List Symbol) : Option (List Symbol) :=
  if t.isPrefixOf (headText symbols) then some (symbols.drop t.length) else none

@[simp] theorem ofCode_nil : ofCode [] = [] := rfl

@[simp] theorem ofCode_cons (piece : CodePiece) (code : List CodePiece) :
    ofCode (piece :: code) = ofPiece piece ++ ofCode code := rfl

@[simp] theorem ofCode_append (code more : List CodePiece) :
    ofCode (code ++ more) = ofCode code ++ ofCode more := List.flatMap_append

@[simp] theorem ofText_append (t u : Text) : ofText (t ++ u) = ofText t ++ ofText u :=
  List.map_append

@[simp] theorem length_ofText (t : Text) : (ofText t).length = t.length := List.length_map ..

theorem headText_ofText_append (t : Text) (rest : List Symbol) :
    headText (ofText t ++ rest) = t ++ headText rest := by
  induction t with
  | nil => rfl
  | cons c t ih => exact congrArg (c :: ·) ih

theorem drop_ofText_append (t : Text) (rest : List Symbol) :
    (ofText t ++ rest).drop t.length = rest := List.drop_left' (length_ofText t)

theorem behind?_ofText_append (t : Text) (rest : List Symbol) :
    behind? t (ofText t ++ rest) = some rest := by
  have isPrefix : t.isPrefixOf (headText (ofText t ++ rest)) = true := by
    rw [headText_ofText_append]
    exact List.isPrefixOf_iff_prefix.2 (List.prefix_append ..)
  rw [behind?, if_pos isPrefix, drop_ofText_append]

end Symbol

/-! ## Reading -/

namespace Generated

section Reading

variable (sheet : Entries) (value : Span → List Entries)

/-- The class that is looked up by a literal, and what stands behind it. -/
def lookup? (symbols : List Symbol) : Option (Text × List Symbol) := do
  let literal ← Symbol.behind? (Vocabulary.styleSheetName ++ "[") symbols
  let length ← Lexeme.stringLength? (Symbol.headText literal)
  let name ← (Literal.decodeQuoted ((Symbol.headText literal).take length)).toOption
  return (name, ← Symbol.behind? "]" (literal.drop length))

/-- The styles that the operand at the head of symbols stands for, and what stands
behind it. A truth value has no properties to contribute. -/
def operand? (symbols : List Symbol) : Option (List Entries × List Symbol) :=
  match symbols with
  | .source span :: rest => some (value span, rest)
  | _ =>
    match Symbol.behind? "\x7b\x7d" symbols, Symbol.behind? "true" symbols with
    | some rest, _ => some ([[]], rest)
    | none, some rest => some ([], rest)
    | none, none => (lookup? symbols).map fun (name, rest) => ([sheet.styleIn name], rest)

/-- The styles that operands stand for, no more than given, which have commas between
them and a text behind them that ends the code. -/
def operands? (closing : Text) : Nat → List Symbol → Option (List Entries)
  | 0, _ => none
  | bound + 1, symbols => do
    let (styles, rest) ← operand? sheet value symbols
    match Symbol.behind? ", " rest with
    | some more => return styles ++ (← operands? closing bound more)
    | none => if rest = Symbol.ofText closing then some styles else none

/-- The style that an assignment to its first argument gives. -/
def assigned? : List Entries → Option Entries
  | [] => none
  | target :: styles => some (styles.foldl merge target)

/-- The style that symbols stand for: an assignment, an array, or one operand. -/
def style? (symbols : List Symbol) : Option Entries :=
  match Symbol.behind? "Object.assign(" symbols, Symbol.behind? "[" symbols with
  | some arguments, _ =>
    (operands? sheet value ")" arguments.length arguments).bind assigned?
  | none, some elements =>
    (operands? sheet value "]" elements.length elements).map (·.foldl merge [])
  | none, none =>
    match operand? sheet value symbols with
    | some ([style], []) => some style
    | _ => none

end Reading

/-- The style that generated code stands for. -/
def meaning? (sheet : Entries) (value : Span → List Entries) (code : List CodePiece) :
    Option Entries :=
  style? sheet value (Symbol.ofCode code)

section

variable {sheet : Entries} {value : Span → List Entries}

/-! ## Operands -/

/-- An item of code is read as one operand, whatever stands behind it. -/
def Reads (sheet : Entries) (value : Span → List Entries) (item : List CodePiece)
    (styles : List Entries) : Prop :=
  ∀ rest, operand? sheet value (Symbol.ofCode item ++ rest) = some (styles, rest)

theorem reads_source (span : Span) : Reads sheet value [.source span] (value span) :=
  fun _ => rfl

theorem reads_object : Reads sheet value [.literal "\x7b\x7d"] [[]] := fun _ => rfl

theorem reads_implied : Reads sheet value [impliedValue] [] := fun _ => rfl

theorem lookup?_lookupCode (name : Text) (rest : List Symbol) :
    lookup? (Symbol.ofText (lookupCode name) ++ rest) = some (name, rest) := by
  have literal : Symbol.ofText (lookupCode name) ++ rest =
      Symbol.ofText (Vocabulary.styleSheetName ++ "[") ++
        (Symbol.ofText (Literal.encode name) ++ (Symbol.ofText "]" ++ rest)) := by
    rw [lookupCode, Symbol.ofText_append, Symbol.ofText_append, List.append_assoc,
      List.append_assoc]
  rw [lookup?, literal, Symbol.behind?_ofText_append]
  simp only [Option.bind_eq_bind, Option.bind_some, Symbol.headText_ofText_append,
    Lexeme.stringLength?_encode, List.take_left', Literal.decodeQuoted_encode,
    Symbol.drop_ofText_append, Symbol.behind?_ofText_append, Except.toOption]
  rfl

/-- The code that looks a class up stands for the style of the class. -/
theorem reads_lookupCode (name : Text) :
    Reads sheet value [.literal (lookupCode name)] [sheet.styleIn name] := by
  intro rest
  have isLookup : operand? sheet value (Symbol.ofText (lookupCode name) ++ rest) =
      (lookup? (Symbol.ofText (lookupCode name) ++ rest)).map
        fun (name, rest) => ([sheet.styleIn name], rest) := rfl
  rw [Symbol.ofCode_cons, Symbol.ofCode_nil, List.append_nil, Symbol.ofPiece, isLookup,
    lookup?_lookupCode]
  rfl

/-! ## Lists of operands -/

/-- Operands with commas between them stand for all their styles in order. -/
theorem operands?_commaSeparated {closing : Text}
    (ends : Symbol.behind? ", " (Symbol.ofText closing) = none)
    {items : List (List CodePiece)} {styles : List (List Entries)}
    (reads : List.Forall₂ (Reads sheet value) items styles) (nonempty : items ≠ [])
    {bound : Nat} (enough : items.length ≤ bound) :
    operands? sheet value closing bound
        (Symbol.ofCode (commaSeparated items) ++ Symbol.ofText closing) =
      some styles.flatten := by
  induction reads generalizing bound with
  | nil => exact absurd rfl nonempty
  | @cons item style rest others here behind ih =>
    obtain ⟨bound, rfl⟩ := Nat.exists_eq_add_of_le' (Nat.lt_of_lt_of_le (Nat.succ_pos _) enough)
    cases behind with
    | nil =>
      rw [commaSeparated, List.intercalate_singleton, operands?, here]
      simp [ends]
    | @cons next nextStyle more moreStyles isNext behind =>
      have later := ih (List.cons_ne_nil next more) (Nat.le_of_succ_le_succ enough)
      have comma (rest : List Symbol) : Symbol.behind? ", "
          (Symbol.ofCode [.literal ", "] ++ rest) = some rest := Symbol.behind?_ofText_append ..
      rw [commaSeparated, List.intercalate_cons_cons, ← commaSeparated, Symbol.ofCode_append,
        Symbol.ofCode_append, List.append_assoc, List.append_assoc, operands?, here]
      simp only [Option.bind_eq_bind, Option.bind_some, comma, later]
      rfl

theorem length_le_commaSeparated (items : List (List CodePiece)) :
    items.length ≤ (Symbol.ofCode (commaSeparated items)).length + 1 := by
  induction items with
  | nil => exact Nat.zero_le _
  | cons item rest ih =>
    cases rest with
    | nil => exact Nat.le_add_left ..
    | cons next more =>
      have comma : (Symbol.ofCode [CodePiece.literal ", "]).length = 2 := rfl
      rw [commaSeparated, List.intercalate_cons_cons, ← commaSeparated, Symbol.ofCode_append,
        Symbol.ofCode_append, List.length_append, List.length_append, comma, List.length_cons]
      omega

/-! ## Calls and arrays -/

theorem ofCode_enclosed (opening closing : Text) (items : List (List CodePiece)) :
    Symbol.ofCode (enclosed opening items closing) = Symbol.ofText opening ++
      (Symbol.ofCode (commaSeparated items) ++ Symbol.ofText closing) := by
  rw [enclosed, List.cons_append, Symbol.ofCode_cons, Symbol.ofCode_append, Symbol.ofPiece,
    Symbol.ofCode_cons, Symbol.ofCode_nil, List.append_nil, Symbol.ofPiece]

/-- Operands between an opening text and a closing code point are read to the end. -/
theorem operands?_enclosed (closing : CodePoint)
    (ends : Symbol.behind? ", " (Symbol.ofText [closing]) = none)
    {items : List (List CodePiece)} {styles : List (List Entries)}
    (reads : List.Forall₂ (Reads sheet value) items styles) (nonempty : items ≠ []) :
    operands? sheet value [closing]
        (Symbol.ofCode (commaSeparated items) ++ Symbol.ofText [closing]).length
        (Symbol.ofCode (commaSeparated items) ++ Symbol.ofText [closing]) =
      some styles.flatten := by
  refine operands?_commaSeparated ends reads nonempty ?_
  rw [List.length_append]
  exact length_le_commaSeparated items

/-- An assignment to a fresh object stands for the merge of what is assigned. -/
theorem meaning?_assignCode {items : List (List CodePiece)} {styles : List (List Entries)}
    (reads : List.Forall₂ (Reads sheet value) items styles) :
    meaning? sheet value (assignCode items) = some (styles.flatten.foldl merge []) := by
  have all := operands?_enclosed (.scalar ')') rfl
    (List.Forall₂.cons reads_object reads) (List.cons_ne_nil _ _)
  rw [meaning?, assignCode, ofCode_enclosed, style?, Symbol.behind?_ofText_append]
  exact (congrArg (Option.bind · assigned?) all).trans rfl

/-- An array stands for the merge of its elements. -/
theorem meaning?_arrayCode {items : List (List CodePiece)} {styles : List (List Entries)}
    (reads : List.Forall₂ (Reads sheet value) items styles) (nonempty : items ≠ []) :
    meaning? sheet value (arrayCode items) = some (styles.flatten.foldl merge []) := by
  have all := operands?_enclosed (.scalar ']') rfl reads nonempty
  have noCall (rest : List Symbol) :
      Symbol.behind? "Object.assign(" (Symbol.ofText "[" ++ rest) = none := rfl
  rw [meaning?, arrayCode, ofCode_enclosed, style?, noCall, Symbol.behind?_ofText_append]
  exact congrArg (Option.map (·.foldl merge [])) all

theorem meaning?_lookupCode (name : Text) :
    meaning? sheet value [.literal (lookupCode name)] = some (sheet.styleIn name) := by
  have read : operand? sheet value (Symbol.ofCode [.literal (lookupCode name)] ++ []) =
      some ([sheet.styleIn name], []) := reads_lookupCode name []
  rw [List.append_nil] at read
  have noCall : Symbol.behind? "Object.assign("
    (Symbol.ofCode [.literal (lookupCode name)]) = none := rfl
  have noArray : Symbol.behind? "[" (Symbol.ofCode [.literal (lookupCode name)]) = none := rfl
  rw [meaning?, style?, noCall, noArray, read]

theorem reads_entries (names : List Text) :
    List.Forall₂ (Reads sheet value) (ClassValue.static names).entries
      (names.map fun name => [sheet.styleIn name]) := by
  rw [ClassValue.entries, List.forall₂_map_left_iff, List.forall₂_map_right_iff,
    List.forall₂_same]
  intro name _
  exact reads_lookupCode name

end

end Generated

/-! ## Inline styles -/

/-- The styles that a piece of code stands for. -/
def CodePiece.styles (value : Span → List Entries) : CodePiece → List Entries
  | literal _ => []
  | source span => value span

/-- The styles in an inline style, one after another. -/
def InlineStyle.styles (value : Span → List Entries) : InlineStyle → List Entries
  | absent => []
  | expression code => code.styles value
  | array _ elements => if elements.isEmpty then [] else value elements

/-- The code of an inline style is a part of the source or the value that is implied. -/
def InlineStyle.IsCopied : InlineStyle → Prop
  | expression (.literal t) => CodePiece.literal t = impliedValue
  | _ => True

theorem Attribute.inlineStyle_isCopied (source : Text) (a : Attribute) :
    (a.inlineStyle source).IsCopied := by
  unfold inlineStyle
  split
  · rfl
  · trivial
  · trivial
  · split
    · trivial
    · trivial

/-! ## Style expressions -/

/-- Every entry is a style that has each of its properties once. -/
def Entries.AreProper (sheet : Entries) : Prop :=
  ∀ entry ∈ sheet, ∃ style : Entries, entry.2 = .mapping style ∧ style.Distinct

namespace Entries.AreProper

variable {sheet : Entries} (h : sheet.AreProper)
include h

theorem areStyles : sheet.AreStyles := fun entry member =>
  (h entry member).imp fun _ isStyle => isStyle.1

theorem distinct_styleIn (name : Text) : (sheet.styleIn name).Distinct := by
  rw [styleIn]
  rcases found : get? (.scalar (.text name)) sheet with _ | v
  · exact .nil
  · obtain ⟨e, member, rfl⟩ := get?_mem found
    obtain ⟨style, isStyle, distinct⟩ := h e member
    rw [isStyle]
    exact distinct

end Entries.AreProper

open Generated

/-- The style expression of class names stands for their styles with the inline style
put over them. -/
theorem ClassValue.meaning?_styleExpression {sheet : Entries} (proper : sheet.AreProper)
    (value : Span → List Entries) {names : List Text} (named : names ≠ []) {style : InlineStyle}
    (copied : style.IsCopied) :
    meaning? sheet value ((static names).styleExpression style) =
      some ((style.styles value).foldl merge (merge [] (names.flatMap sheet.styleIn))) := by
  have reads : List.Forall₂ (Reads sheet value) (static names).entries
      (names.map fun name => [sheet.styleIn name]) := reads_entries names
  have nonempty : (static names).entries ≠ [] := by simpa [entries] using named
  have merged : (names.map fun name => [sheet.styleIn name]).flatten.foldl merge [] =
      merge [] (names.flatMap sheet.styleIn) := by
    rw [← List.flatMap_def, ← List.map_eq_flatMap, foldl_merge_map]
  -- What comes last is merged last, whatever stands around the list.
  have behind (styles : List Entries) :
      ((names.map fun name => [sheet.styleIn name]) ++ [styles]).flatten.foldl merge [] =
        styles.foldl merge (merge [] (names.flatMap sheet.styleIn)) := by
    rw [List.flatten_append, List.foldl_append, merged, List.flatten_singleton]
  cases style with
  | absent =>
    rw [styleExpression, InlineStyle.styles, List.foldl_nil, ← merged]
    obtain _ | ⟨name, _ | ⟨second, rest⟩⟩ := names
    · exact absurd rfl named
    · rw [merged]
      refine (meaning?_lookupCode name).trans ?_
      rw [List.flatMap_singleton, merge_nil_of_distinct (proper.distinct_styleIn name)]
    · exact meaning?_assignCode reads
  | expression code =>
    have last : List.Forall₂ (Reads sheet value) [[code]] [code.styles value] := by
      refine .cons ?_ .nil
      cases code with
      | literal t =>
        rw [copied]
        exact reads_implied
      | source span => exact reads_source span
    rw [styleExpression, meaning?_assignCode (List.rel_append reads last), behind]
    rfl
  | array code elements =>
    rw [styleExpression, InlineStyle.styles]
    split
    · rw [List.append_nil, meaning?_arrayCode reads nonempty, merged]
      rfl
    · have last : List.Forall₂ (Reads sheet value) [[.source elements]] [value elements] :=
        .cons (reads_source elements) .nil
      have some := List.append_ne_nil_of_left_ne_nil nonempty [[CodePiece.source elements]]
      rw [meaning?_arrayCode (List.rel_append reads last) some, behind]

/-- The text that the class names of an attribute are known from. -/
def Attribute.classText? (source : Text) (a : Attribute) : Option Text :=
  match a.value with
  | some (.quoted span) => some ((span.text source).drop 1).dropLast
  | some (.container _ inner) => (Shape.parse (inner.text source)).bind (·.staticText?)
  | _ => none

theorem Attribute.classValue_of_classText? {source text : Text} {a : Attribute}
    (static : a.classText? source = some text) : a.classValue source = .static text.words := by
  unfold classText? at static
  unfold classValue
  split at static
  · rename_i isQuoted
    cases static
    rw [isQuoted]
  · rename_i isContainer
    rw [isContainer]
    dsimp only
    rw [static]
  · cases static

/-- For static class names, the code that the pass writes stands for the style that
resolving their text gives, with the inline style put over it. -/
theorem Element.styleExpression_agrees {sheet : Entries} (proper : sheet.AreProper)
    (value : Span → List Entries) {source : Text} {e : Element} {a : Attribute}
    (last : e.attribute? Vocabulary.classAttribute = some a) {text : Text}
    (static : a.classText? source = some text) (named : text.words ≠ []) :
    ∃ c code classes, e.classify source = some c ∧ c.styleExpression = some code ∧
      classStyle (.mapping sheet) text = .ok classes ∧
      styleOf (.mapping sheet) (.text text) = .ok (.mapping classes) ∧
      meaning? sheet value code = some ((c.style.styles value).foldl merge classes) := by
  have resolved := proper.areStyles.isStylesheet.classStyle_eq text
  have isStatic := Attribute.classValue_of_classText? static
  obtain ⟨style, classified, copied⟩ : ∃ style : InlineStyle,
      e.classify source = some ⟨some (.static text.words), style⟩ ∧ style.IsCopied := by
    rw [classify, last, ← isStatic]
    cases e.attribute? Vocabulary.styleAttribute with
    | none => exact ⟨.absent, rfl, trivial⟩
    | some b => exact ⟨b.inlineStyle source, rfl, b.inlineStyle_isCopied source⟩
  have resolvable : (⟨some (.static text.words), style⟩ : Classification).resolvable =
      some (.static text.words) := by
    simpa [Classification.resolvable, ClassValue.isEmpty] using named
  refine ⟨_, (ClassValue.static text.words).styleExpression style, _, classified, ?_, resolved,
    ?_, ?_⟩
  · rw [Classification.styleExpression, resolvable]
    rfl
  · rw [styleOf, resolved]
    rfl
  · exact ClassValue.meaning?_styleExpression proper value named copied

/-- Class names in quotes and an array for the style. -/
def arraySource : Text := "<b className=\"b a\" style=\x7b[x]\x7d/>"

/-- The class attribute that is read there. -/
def writtenClasses : Attribute :=
  ⟨some "className", .written ⟨3, 18, by decide⟩ (some "className")
    (some (.quoted ⟨13, 18, by decide⟩))⟩

/-- The element that is read there. -/
def arrayElement : Element where
  name := "b"
  span := ⟨0, 32, by decide⟩
  region := ⟨2, 30, by decide⟩
  selfClosing := true
  parsed := [writtenClasses,
    ⟨some "style", .written ⟨19, 30, by decide⟩ (some "style")
      (some (.container ⟨25, 30, by decide⟩ ⟨26, 29, by decide⟩))⟩]

/-- What is in the array wins over the class `a`, and this over the class `b`. -/
theorem Element.styleExpression_agrees_array :
    let value : Span → List Entries := fun _ => [[(.scalar (.text "flex"), .text "none")]]
    twoStyles.AreProper ∧ ∃ code,
      (arrayElement.classify arraySource).bind (·.styleExpression) = some code ∧
      meaning? twoStyles value code = some [
        (.scalar (.text "color"), .text "red"), (.scalar (.text "order"), .scalar (.integer 2)),
        (.scalar (.text "flex"), .text "none")] := by
  intro value
  have proper : twoStyles.AreProper := by
    intro entry member
    rcases List.mem_cons.1 member with rfl | member
    · exact ⟨_, rfl, by decide⟩
    · rw [List.mem_singleton.1 member]
      exact ⟨_, rfl, by decide⟩
  have last : arrayElement.attribute? Vocabulary.classAttribute = some writtenClasses := rfl
  have static : writtenClasses.classText? arraySource = some ("b a" : Text) := rfl
  have named : Text.words "b a" ≠ [] := by decide
  obtain ⟨c, code, classes, classified, isCode, resolved, -, means⟩ :=
    styleExpression_agrees proper value last static named
  refine ⟨proper, code, by rw [classified]; exact isCode, ?_⟩
  have isStyle : (arrayElement.classify arraySource).map (·.style) =
      some (.array ⟨26, 29, by decide⟩ ⟨27, 28, by decide⟩) := by
    decide +kernel
  rw [classified] at isStyle
  have isArray : c.style = .array ⟨26, 29, by decide⟩ ⟨27, 28, by decide⟩ :=
    Option.some.inj isStyle
  rw [means, isArray]
  cases resolved
  rfl

end StyleBinding
