import StyleBinding.Value.Basic

/-!
# Entries of mappings

Putting an entry replaces the value of the same key where it stands, or appends
a new entry, so entries stay in the order in which their keys came first. A
mapping is updated from another one entry by entry; a sequence of pairs serves
for a mapping.
-/

namespace StyleBinding.Entries

/-- The value of a key. -/
def get? (key : Key) : Entries → Option Value
  | [] => none
  | (other, value) :: rest => if other.same key then some value else get? key rest

/-- The entries with one put. -/
def put (key : Key) (value : Value) : Entries → Entries
  | [] => [(key, value)]
  | (other, old) :: rest =>
    if other.same key then (other, value) :: rest else (other, old) :: put key value rest

/-- The entries with those of another mapping put one after another. -/
def merge (entries added : Entries) : Entries :=
  added.foldl (fun found entry => put entry.1 entry.2 found) entries

/-! ## Updating from any value -/

/-- Why a value cannot serve for a mapping. -/
inductive UpdateError where
  /-- Neither the value nor one of its elements goes without elements. -/
  | notIterable
  /-- An element is not a pair. -/
  | notAPair (length : Nat)
  /-- The first half of a pair cannot be a key. -/
  | notAKey
deriving DecidableEq

/-- The entry that a pair stands for. -/
def ofPair (pair : Value) : Except UpdateError (Key × Value) :=
  match pair.elements? with
  | none => .error .notIterable
  | some [first, second] =>
    match Key.ofValue? first with
    | none => .error .notAKey
    | some key => .ok (key, second)
  | some items => .error (.notAPair items.length)

/-- The entries that pairs stand for. -/
def ofPairs : List Value → Except UpdateError Entries
  | [] => .ok []
  | pair :: rest =>
    match ofPair pair with
    | .error e => .error e
    | .ok entry =>
      match ofPairs rest with
      | .error e => .error e
      | .ok entries => .ok (entry :: entries)

/-- The entries that a value contributes to a mapping. -/
def ofValue : Value → Except UpdateError Entries
  | .mapping entries => .ok entries
  | value =>
    match value.elements? with
    | none => .error .notIterable
    | some pairs => ofPairs pairs

/-- The entries updated from a value. -/
def update (entries : Entries) (value : Value) : Except UpdateError Entries :=
  (ofValue value).map entries.merge

end StyleBinding.Entries
