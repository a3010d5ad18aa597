import StyleBinding.Text.Basic

/-!
# Paths

Paths of modules: a query or a fragment may follow the path proper, the last
component follows the last slash, and an extension begins at the last full stop
of a component, provided that something other than full stops stands before it.
-/

namespace StyleBinding.Text

/-- A path without its query and fragment. -/
def withoutQuery (path : Text) : Text := path.takeWhile fun c => !(c.is '?' || c.is '#')

/-- The part of a text behind the last occurrence of a character, or all of it. -/
def afterLast (x : Char) (t : Text) : Text := (t.reverse.takeWhile (!·.is x)).reverse

/-- The last component of a path. -/
def lastComponent (path : Text) : Text := afterLast '/' path

/-- A component cut in front of its extension. -/
def splitExtension (component : Text) : Text × Text :=
  let letters := afterLast '.' component
  let stem := component.take (component.length - letters.length - 1)
  if stem.all (·.is '.') then (component, []) else (stem, .scalar '.' :: letters)

/-- The extension of the last component of a path. -/
def extension (path : Text) : Text := (splitExtension (lastComponent path)).2

/-- The last component of a path without its extension. -/
def stem (path : Text) : Text := (splitExtension (lastComponent path)).1

/-! ## Components -/

/-- The components of a path, the empty ones between and around slashes included. -/
def components : Text → List Text
  | [] => [[]]
  | c :: rest =>
    if c.is '/' then [] :: components rest
    else
      match components rest with
      | [] => [[c]]
      | component :: more => (c :: component) :: more

/-- Whether a component means the place where it stands. -/
def isHere (component : Text) : Bool := component.isEmpty || component == [.scalar '.']

/-- Whether a component means the place above. -/
def isUp (component : Text) : Bool := component == [.scalar '.', .scalar '.']

/-- Whether a path starts at the root. -/
def isAbsolute (path : Text) : Bool := path.startsWith "/"

/-- The components of a path that lead somewhere. -/
def steps (path : Text) : List Text := (components path).filter (!isHere ·)

/-- A path without the components that lead nowhere. -/
def tidy (path : Text) : Text :=
  if path.isAbsolute then "/" ++ join "/" (steps path)
  else if (steps path).isEmpty then "."
  else join "/" (steps path)

end StyleBinding.Text
