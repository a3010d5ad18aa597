import StyleBinding.Value.Entries

/-!
# Styles of class names

A stylesheet maps class names to styles, and a style maps properties to values.
The style of a class text is the union of the styles of its words, later words
winning; the style of a sequence is the union of its items' styles, and that of
a mapping the union over those of its keys whose value counts as true.
-/

namespace StyleBinding

/-- Why a style cannot be found. -/
inductive StyleError where
  /-- Class names are looked up in something that is no mapping. -/
  | notAStylesheet
  /-- The entry of a class is not a style. -/
  | notAStyle (cause : Entries.UpdateError)
deriving DecidableEq

/-- The union of stylesheets; the last one that has a class gives its style. -/
def mergeSheets (sheets : List Value) : Except Entries.UpdateError Entries :=
  sheets.foldlM Entries.update []

/-- What a stylesheet has for a class. An entry that counts as false is as good as
none. -/
def classEntry (sheet : Value) (name : Text) : Except StyleError Value :=
  match sheet with
  | .mapping entries =>
    match Entries.get? (.scalar (.text name)) entries with
    | none => .ok (.mapping [])
    | some entry => .ok (if entry.isTruthy then entry else .mapping [])
  | _ => .error .notAStylesheet

/-- A style with that of one more class put over it. -/
def addClass (sheet : Value) (style : Entries) (name : Text) : Except StyleError Entries :=
  match classEntry sheet name with
  | .error e => .error e
  | .ok entry =>
    match style.update entry with
    | .error e => .error (.notAStyle e)
    | .ok updated => .ok updated

/-- The style of the words of a text. -/
def classStyle (sheet : Value) (text : Text) : Except StyleError Entries :=
  text.words.foldlM (addClass sheet) []

/-- A style with those of the keys put over it whose values count as true. -/
def addEnabled (sheet : Value) (style : Entries) (entry : Key × Value) :
    Except StyleError Entries :=
  if entry.2.isTruthy then (classStyle sheet entry.1.display).map style.merge else .ok style

mutual
/-- The style of a class value. A value that names no classes is its own style. -/
def styleOf (sheet : Value) : Value → Except StyleError Value
  | .scalar (.text t) => (classStyle sheet t).map .mapping
  | .scalar s => .ok (.scalar s)
  | .list items => (addStyles sheet [] items).map .mapping
  | .tuple items => (addStyles sheet [] items).map .mapping
  | .mapping entries => (entries.foldlM (addEnabled sheet) []).map .mapping

/-- A style with those of further class values put over it. -/
def addStyles (sheet : Value) : Entries → List Value → Except StyleError Entries
  | style, [] => .ok style
  | style, item :: rest =>
    match styleOf sheet item with
    | .error e => .error e
    | .ok (.mapping added) => addStyles sheet (style.merge added) rest
    | .ok _ => addStyles sheet style rest
end

end StyleBinding
