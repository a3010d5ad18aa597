import StyleBinding.Text.Basic
import StyleBinding.Value.Entries

/-!
# The language of the helpers

As much JavaScript as the helper for class values is written in: a function of one
parameter that tries conditions in turn, and expressions with calls, folds and
assignments to fresh objects. An expression has a text, as it stands in a module,
and a value. Numbers, texts, `true`, `false` and `null` are the scalars, arrays are
sequences, and a plain object is a mapping whose keys are texts. An object that is
assigned to is always a fresh one that nothing else refers to, so assigning gives
the new object.

What has no value here is either an error of the language, a call beyond the
given depth, or not needed: the identity of objects, the prototypes of scalars,
assigning from a text or an array, and the keys of an object among which there are
indices, since those come first and in ascending order. What objects inherit is left
out, because assigning takes none of it.
-/

namespace StyleBinding.Script

/-! ## Values -/

/-- What an expression stands for: nothing defined, the prototype of plain objects
or of arrays, or a value. -/
inductive Datum where
  | undefined
  | prototype (path : Text)
  | value (v : Value)

/-- Whether a value counts as true: neither `false` nor zero, what is no number, an
empty text or `null`. Every array and object does. -/
def isTrue : Value → Bool
  | .scalar (.double (.nan _)) => false
  | .scalar s => s.isTruthy
  | _ => true

/-- Whether a code point is white space in regular expressions. -/
def isSpace (c : CodePoint) : Bool :=
  inRanges [(0x9, 0xD), (0x20, 0x20), (0xA0, 0xA0), (0x1680, 0x1680), (0x2000, 0x200A),
    (0x2028, 0x2029), (0x202F, 0x202F), (0x205F, 0x205F), (0x3000, 0x3000),
    (0xFEFF, 0xFEFF)] c.toNat

/-- The texts between runs of white space. One before a run at the beginning and one
behind a run at the end are empty. -/
def splitAtSpace : Text → List Text
  | [] => [[]]
  | c :: rest =>
    match splitAtSpace rest with
    | [] => [[c]]
    | first :: more =>
      if !isSpace c then (c :: first) :: more
      else if rest.head?.any isSpace then first :: more
      else [] :: first :: more

/-- The number that decimal digits write. -/
def decimalNumber (digits : Text) : Nat := digits.foldl (fun n c => 10 * n + (c.toNat - 48)) 0

/-- Whether a key is an index, which objects list before all other keys. -/
def isIndex (key : Text) : Bool :=
  decide (key = Text.ofNat (decimalNumber key)) && decide (decimalNumber key < 0xFFFFFFFF)

namespace Datum

/-- The name of the type of a datum. -/
def typeName : Datum → Text
  | undefined => "undefined"
  | value (.scalar (.boolean _)) => "boolean"
  | value (.scalar (.integer _)) => "number"
  | value (.scalar (.double _)) => "number"
  | value (.scalar (.text _)) => "string"
  | _ => "object"

/-- Whether a datum counts as true. -/
def isTrue : Datum → Bool
  | undefined => false
  | prototype _ => true
  | value v => Script.isTrue v

/-- Whether two scalars are one and the same. -/
def sameScalar : Scalar → Scalar → Bool
  | .null, .null => true
  | .null, _ => false
  | _, .null => false
  | .boolean a, .boolean b => a == b
  | .boolean _, _ => false
  | _, .boolean _ => false
  | .double (.nan _), _ => false
  | s, t => s.same t

/-- Whether two data are one and the same. -/
def same? : Datum → Datum → Option Bool
  | undefined, undefined => some true
  | prototype p, prototype q => some (decide (p = q))
  | value (.scalar s), value (.scalar t) => some (sameScalar s t)
  | value (.scalar _), _ => some false
  | _, value (.scalar _) => some false
  | undefined, _ => some false
  | _, undefined => some false
  | _, _ => none

/-- Whether a datum is an array. -/
def isArray : Datum → Bool
  | value (.list _) => true
  | value (.tuple _) => true
  | _ => false

/-- The prototype of an array or an object. -/
def prototype? : Datum → Option Datum
  | value (.list _) => some (prototype "Array.prototype")
  | value (.tuple _) => some (prototype "Array.prototype")
  | value (.mapping _) => some (prototype "Object.prototype")
  | _ => none

/-- A key as an item of a list of keys. -/
def keyItem? : Key → Option Value
  | .scalar (.text t) => if isIndex t then none else some (.text t)
  | _ => none

/-- The list of the keys of an object. -/
def keys? : Datum → Option Datum
  | value (.mapping entries) =>
    (entries.mapM fun e => keyItem? e.1).map fun keys => value (.list keys)
  | _ => none

/-- The property of an object under a key. -/
def member? : Datum → Datum → Option Datum
  | value (.mapping entries), value (.scalar (.text key)) =>
    match Entries.get? (.scalar (.text key)) entries with
    | some v => some (value v)
    | none => some undefined
  | _, _ => none

/-- An object with the properties of a datum assigned to it. -/
def assign? : Datum → Datum → Option Datum
  | value (.mapping target), value (.mapping source) =>
    some (value (.mapping (Entries.merge target source)))
  | value (.mapping _), value (.scalar (.text _)) => none
  | value (.mapping target), value (.scalar _) => some (value (.mapping target))
  | value (.mapping target), undefined => some (value (.mapping target))
  | _, _ => none

/-- The texts between the runs of white space in a text. -/
def split? : Datum → Option Datum
  | value (.scalar (.text t)) => some (value (.list ((splitAtSpace t).map .text)))
  | _ => none

/-- The items of an array. -/
def items? : Datum → Option (List Value)
  | value (.list items) => some items
  | value (.tuple items) => some items
  | _ => none

end Datum

/-! ## Expressions -/

/-- An expression. No parentheses are needed: a comparison binds tighter than `&&`,
and this tighter than a choice. -/
inductive Expression where
  | var (name : Text)
  | null
  | string (content : Text)
  | emptyObject
  | prototype (path : Text)
  | typeOf (e : Expression)
  | equal (a b : Expression)
  | unequal (a b : Expression)
  | both (a b : Expression)
  | choice (condition yes no : Expression)
  | member (object key : Expression)
  | call (function : Text) (argument : Expression)
  | isArray (e : Expression)
  | prototypeOf (e : Expression)
  | keys (e : Expression)
  | assign (target source : Expression)
  | split (e : Expression)
  | reduce (e : Expression) (style item : Text) (body start : Expression)

/-- The values of variables. -/
abbrev Variables := List (Text × Datum)

namespace Expression

/-- The text of an expression in a line with a margin. The function of a fold has its
body in a line of its own. -/
def print (margin : Text) : Expression → Text
  | var name => name
  | null => "null"
  | string content => "\"" ++ content ++ "\""
  | emptyObject => "\x7b\x7d"
  | prototype path => path
  | typeOf e => "typeof " ++ print margin e
  | equal a b => print margin a ++ " === " ++ print margin b
  | unequal a b => print margin a ++ " !== " ++ print margin b
  | both a b => print margin a ++ " && " ++ print margin b
  | choice condition yes no =>
    print margin condition ++ " ? " ++ print margin yes ++ " : " ++ print margin no
  | member object key => print margin object ++ "[" ++ print margin key ++ "]"
  | call function argument => function ++ "(" ++ print margin argument ++ ")"
  | isArray e => "Array.isArray(" ++ print margin e ++ ")"
  | prototypeOf e => "Object.getPrototypeOf(" ++ print margin e ++ ")"
  | keys e => "Object.keys(" ++ print margin e ++ ")"
  | assign target source =>
    "Object.assign(" ++ print margin target ++ ", " ++ print margin source ++ ")"
  | split e => print margin e ++ ".split(/\\s+/)"
  | reduce e style item body start =>
    print margin e ++ ".reduce(function (" ++ style ++ ", " ++ item ++ ") \x7b\n" ++
      margin ++ "  return " ++ print (margin ++ "  ") body ++ ";\n" ++
      margin ++ "\x7d, " ++ print margin start ++ ")"

/-- The value of an expression. `call` gives what calls of functions return. -/
def eval (call : Text → Datum → Option Datum) : Variables → Expression → Option Datum
  | scope, var name => scope.lookup name
  | _, null => some (.value .null)
  | _, string content => some (.value (.text content))
  | _, emptyObject => some (.value (.mapping []))
  | _, prototype path => some (.prototype path)
  | scope, typeOf e => (eval call scope e).map fun d => .value (.text d.typeName)
  | scope, equal a b => do
    let same ← (← eval call scope a).same? (← eval call scope b)
    return .value (.scalar (.boolean same))
  | scope, unequal a b => do
    let same ← (← eval call scope a).same? (← eval call scope b)
    return .value (.scalar (.boolean !same))
  | scope, both a b => do
    let first ← eval call scope a
    if first.isTrue then eval call scope b else some first
  | scope, choice condition yes no => do
    if (← eval call scope condition).isTrue then eval call scope yes
    else eval call scope no
  | scope, member object key => do
    (← eval call scope object).member? (← eval call scope key)
  | scope, .call function argument => do call function (← eval call scope argument)
  | scope, isArray e =>
    (eval call scope e).map fun d => .value (.scalar (.boolean d.isArray))
  | scope, prototypeOf e => do (← eval call scope e).prototype?
  | scope, keys e => do (← eval call scope e).keys?
  | scope, assign target source => do
    (← eval call scope target).assign? (← eval call scope source)
  | scope, split e => do (← eval call scope e).split?
  | scope, reduce e style item body start => do
    let items ← (← eval call scope e).items?
    items.foldlM (fun d x => eval call ((style, d) :: (item, .value x) :: scope) body)
      (← eval call scope start)

end Expression

/-! ## Functions -/

/-- A function of one parameter. It returns the expression behind the first condition
that holds, or else its last one. -/
structure Function where
  name : Text
  parameter : Text
  cases : List (Expression × Expression)
  otherwise : Expression

namespace Function

/-- The text of a condition and what is returned when it holds. -/
def printCase (c : Expression × Expression) : Text :=
  "  if (" ++ c.1.print "  " ++ ") \x7b\n    return " ++ c.2.print "    " ++ ";\n  \x7d\n\n"

/-- The text of a function. -/
def print (f : Function) : Text :=
  "function " ++ f.name ++ "(" ++ f.parameter ++ ") \x7b\n" ++ f.cases.flatMap printCase ++
    "  return " ++ f.otherwise.print "  " ++ ";\n\x7d"

/-- What the first of some cases gives whose condition holds, or else an expression. -/
def choose (eval : Expression → Option Datum) (otherwise : Expression) :
    List (Expression × Expression) → Option Datum
  | [] => eval otherwise
  | (condition, result) :: rest => do
    if (← eval condition).isTrue then eval result else choose eval otherwise rest

/-- What a function returns when its calls are nested no deeper than given. -/
def run (f : Function) (globals : Variables) : Nat → Datum → Option Datum
  | 0, _ => none
  | depth + 1, d =>
    choose
      (Expression.eval (fun name e => if name = f.name then f.run globals depth e else none)
        ((f.parameter, d) :: globals))
      f.otherwise f.cases

/-- A function returns a datum, however many more nested calls are allowed. -/
def Returns (f : Function) (globals : Variables) (d result : Datum) : Prop :=
  ∃ depth, ∀ n, depth ≤ n → f.run globals n d = some result

/-- A function returns one datum at most. -/
theorem Returns.unique {f : Function} {globals : Variables} {d r s : Datum}
    (h : f.Returns globals d r) (k : f.Returns globals d s) : r = s := by
  obtain ⟨m, returnsR⟩ := h
  obtain ⟨n, returnsS⟩ := k
  have both := (returnsR (max m n) (Nat.le_max_left m n)).symm.trans
    (returnsS (max m n) (Nat.le_max_right m n))
  exact Option.some.inj both

end Function

/-! ## White space -/

/-- Where white space is what separates words, the texts between its runs are the
words and perhaps empty ones at both ends. -/
theorem splitAtSpace_pieces {t : Text} (shared : ∀ c ∈ t, isSpace c = c.isBlank) :
    ∃ first more others, splitAtSpace t = first :: more ∧ t.pieces = first :: others ∧
      more.filter (!·.isEmpty) = others.filter (!·.isEmpty) ∧
      (t.head?.any isSpace = true → first = []) := by
  induction t with
  | nil => exact ⟨[], [], [], rfl, rfl, rfl, nofun⟩
  | cons c rest ih =>
    obtain ⟨same, behind⟩ := List.forall_mem_cons.1 shared
    obtain ⟨first, more, others, isSplit, isPieces, words, starts⟩ := ih behind
    rw [splitAtSpace, isSplit, Text.pieces, isPieces, ← same]
    cases space : isSpace c with
    | false => exact ⟨c :: first, more, others, rfl, rfl, words, by simp [space]⟩
    | true =>
      cases next : rest.head?.any isSpace with
      | false =>
        refine ⟨[], first :: more, first :: others, rfl, rfl, ?_, fun _ => rfl⟩
        rw [List.filter_cons, List.filter_cons, words]
      | true =>
        rw [starts next]
        exact ⟨[], more, [] :: others, rfl, rfl, words, fun _ => rfl⟩

theorem filter_splitAtSpace {t : Text} (shared : ∀ c ∈ t, isSpace c = c.isBlank) :
    (splitAtSpace t).filter (!·.isEmpty) = t.words := by
  obtain ⟨first, more, others, isSplit, isPieces, words, _⟩ := splitAtSpace_pieces shared
  rw [isSplit, Text.words, isPieces, List.filter_cons, List.filter_cons, words]

end StyleBinding.Script
