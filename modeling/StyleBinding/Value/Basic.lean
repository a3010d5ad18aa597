import StyleBinding.Value.Scalar

/-!
# Values

The dynamic values that class names, styles and options are made of. A mapping
keeps its entries in the order in which their keys were first put; a key is a
value that contains no list and no mapping.
-/

namespace StyleBinding

/-- A value that can name an entry of a mapping. -/
inductive Key where
  | scalar (s : Scalar)
  | tuple (items : List Key)

/-- A value as it occurs at run time. -/
inductive Value where
  | scalar (s : Scalar)
  | list (items : List Value)
  | tuple (items : List Value)
  | mapping (entries : List (Key × Value))

/-- The entries of a mapping, in order. -/
abbrev Entries := List (Key × Value)

namespace Value

/-- The value that stands for nothing. -/
abbrev null : Value := .scalar .null

/-- A text as a value. -/
abbrev text (t : Text) : Value := .scalar (.text t)

/-- Whether a value counts as true. -/
def isTruthy : Value → Bool
  | scalar s => s.isTruthy
  | list items => !items.isEmpty
  | tuple items => !items.isEmpty
  | mapping entries => !entries.isEmpty

end Value

/-! ## Keys -/

namespace Key

mutual
/-- A key as a value. -/
def toValue : Key → Value
  | scalar s => .scalar s
  | tuple items => .tuple (toValues items)

/-- Keys as values. -/
def toValues : List Key → List Value
  | [] => []
  | key :: rest => toValue key :: toValues rest
end

mutual
/-- The key that a value can serve as. -/
def ofValue? : Value → Option Key
  | .scalar s => some (.scalar s)
  | .tuple items => (ofValues? items).map .tuple
  | .list _ => none
  | .mapping _ => none

/-- The keys that values can serve as. -/
def ofValues? : List Value → Option (List Key)
  | [] => some []
  | value :: rest =>
    match ofValue? value, ofValues? rest with
    | some key, some keys => some (key :: keys)
    | _, _ => none
end

mutual
/-- Whether two keys name the same entry. -/
def same : Key → Key → Bool
  | scalar s, scalar t => s.same t
  | tuple items, tuple others => sameAll items others
  | _, _ => false

/-- Whether two lists of keys are the same key by key. -/
def sameAll : List Key → List Key → Bool
  | [], [] => true
  | a :: rest, b :: others => same a b && sameAll rest others
  | _, _ => false
end

mutual
/-- A key as it is shown inside another value. -/
def shown : Key → Text
  | scalar s => s.shown
  | tuple [item] => "(" ++ shown item ++ ",)"
  | tuple items => "(" ++ shownItems items ++ ")"

/-- Keys with commas between them. -/
def shownItems : List Key → Text
  | [] => []
  | [item] => shown item
  | item :: rest => shown item ++ ", " ++ shownItems rest
end

/-- A key as it is displayed on its own. -/
def display : Key → Text
  | scalar s => s.display
  | key => key.shown

end Key

namespace Value

/-- The elements of a value: the code points of a text, the items of a list or a
tuple, the keys of a mapping. -/
def elements? : Value → Option (List Value)
  | scalar (.text t) => some (t.map fun c => text [c])
  | scalar _ => none
  | list items => some items
  | tuple items => some items
  | mapping entries => some (entries.map fun entry => entry.1.toValue)

/-! ## Texts of values -/

mutual
/-- A value as it is shown inside another one. -/
def shown : Value → Text
  | scalar s => s.shown
  | list items => "[" ++ shownItems items ++ "]"
  | tuple [item] => "(" ++ shown item ++ ",)"
  | tuple items => "(" ++ shownItems items ++ ")"
  | mapping entries => "\x7b" ++ shownEntries entries ++ "\x7d"

/-- Values with commas between them. -/
def shownItems : List Value → Text
  | [] => []
  | [item] => shown item
  | item :: rest => shown item ++ ", " ++ shownItems rest

/-- Entries with commas between them. -/
def shownEntries : List (Key × Value) → Text
  | [] => []
  | [(key, value)] => key.shown ++ ": " ++ shown value
  | (key, value) :: rest => key.shown ++ ": " ++ shown value ++ ", " ++ shownEntries rest
end

/-- A value as it is displayed on its own. -/
def display : Value → Text
  | scalar s => s.display
  | value => value.shown

end Value

end StyleBinding
