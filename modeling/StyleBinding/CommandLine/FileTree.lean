import StyleBinding.Text.Path
import StyleBinding.Text.Utf8

/-!
# Files

The files that a command can see, by the names on the way to them from the root,
and the directory that it runs in. Paths are followed step by step; each step
but the last must lead to a directory.
-/

namespace StyleBinding

/-- The names on the way from the root to a file or directory. -/
abbrev Location := List Text

/-- Why a file cannot be reached. A text with a null character is no path. -/
inductive FileError where
  | notAPath
  | notFound
  | notADirectory
  | isADirectory
deriving DecidableEq

/-- Files with their contents, further directories, and the directory in which
relative paths start. -/
structure FileTree where
  working : Location
  files : List (Location × Bytes)
  directories : List Location := []
deriving DecidableEq

/-- What a path leads to. -/
inductive Place where
  | file (location : Location)
  | directory (location : Location)
deriving DecidableEq

namespace FileTree

/-- The content of a file. -/
def content? (t : FileTree) (location : Location) : Option Bytes :=
  (t.files.find? fun f => f.1 == location).map (·.2)

/-- Whether a location is a directory: the working directory and those above it
are, and whatever holds a file or a directory. -/
def isDirectory (t : FileTree) (location : Location) : Bool :=
  location.isPrefixOf t.working || t.directories.any (location.isPrefixOf ·) ||
    t.files.any fun f => location.isPrefixOf f.1.dropLast

/-- A list of files with one content set. -/
def setContent (location : Location) (content : Bytes) :
    List (Location × Bytes) → List (Location × Bytes)
  | [] => [(location, content)]
  | f :: rest =>
    if f.1 == location then (location, content) :: rest
    else f :: setContent location content rest

/-- A tree with the content of a file set. -/
def write (t : FileTree) (location : Location) (content : Bytes) : FileTree :=
  { t with files := setContent location content t.files }

/-! ## Following paths -/

/-- What a name in a directory leads to. -/
def entry (t : FileTree) (location : Location) : Except FileError Place :=
  if (t.content? location).isSome then .ok (.file location)
  else if t.isDirectory location then .ok (.directory location)
  else .error .notFound

/-- One step from a place. -/
def step (t : FileTree) (place : Place) (name : Text) : Except FileError Place :=
  match place with
  | .file _ => .error .notADirectory
  | .directory location =>
    if Text.isHere name then .ok place
    else if Text.isUp name then .ok (.directory location.dropLast)
    else t.entry (location ++ [name])

/-- Where a path starts. -/
def start (t : FileTree) (path : Text) : Place :=
  .directory (if path.isAbsolute then [] else t.working)

/-- What a path leads to. -/
def find (t : FileTree) (path : Text) : Except FileError Place :=
  if path.any (·.is '\x00') then .error .notAPath
  else if path.isEmpty then .error .notFound
  else path.components.foldlM t.step (t.start path)

/-- The file that a path leads to. -/
def findFile (t : FileTree) (path : Text) : Except FileError Location :=
  match path.steps.foldlM t.step (t.start path) with
  | .error e => .error e
  | .ok (.directory _) => .error .isADirectory
  | .ok (.file location) => .ok location

/-- The location of a file that is to be written, whether it is there or not. -/
def findTarget (t : FileTree) (path : Text) : Except FileError Location :=
  match path.steps.getLast?, path.steps.dropLast.foldlM t.step (t.start path) with
  | _, .error e => .error e
  | none, .ok _ => .error .isADirectory
  | some _, .ok (.file _) => .error .notADirectory
  | some name, .ok (.directory location) =>
    if Text.isUp name || t.isDirectory (location ++ [name]) then .error .isADirectory
    else .ok (location ++ [name])

end FileTree

end StyleBinding
