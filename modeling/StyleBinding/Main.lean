import StyleBinding.CommandLine.Program

/-!
# Running the program on the file system

Loads the files and directories that the arguments may name, runs the program on
them, and writes back what it changed.
-/

namespace StyleBinding

/-- The characters of a text. Surrogates, which no output holds, are left out. -/
def Text.characters (t : Text) : String :=
  String.ofList (t.filterMap fun
    | .scalar c => some c
    | .surrogate _ => none)

namespace Loading

/-- The paths that an argument may name: itself, and what follows an equals sign
or the letter of a short option. -/
def candidates (argument : Text) : List Text :=
  [argument, argument.drop 2] ++ (Arguments.cutAtEquals argument).2.toList

/-- The locations on the way along a path. -/
def locations (working : Location) (path : Text) : List Location :=
  let start := if path.isAbsolute then [] else working
  path.steps.foldl (fun found name =>
    let here := found.getLast?.getD start
    found ++ [if Text.isUp name then here.dropLast else here ++ [name]]) []

/-- The path of a location in the file system. -/
def systemPath (location : Location) : String := Text.characters ("/" ++ Text.join "/" location)

/-- A tree with what is at a location. What cannot be read is left out. -/
def load (tree : FileTree) (location : Location) : IO FileTree := do
  try
    let path ← IO.FS.realPath (systemPath location)
    if ← path.isDir then
      return { tree with directories := location :: tree.directories }
    else
      let content ← IO.FS.readBinFile path
      return tree.write location content.toList
  catch _ => return tree

/-- Writes the files back that differ between two trees. -/
def store (before after : FileTree) : IO Unit :=
  after.files.forM fun (location, content) => do
    if before.content? location != some content then
      IO.FS.writeBinFile (systemPath location) ⟨content.toArray⟩

end Loading

end StyleBinding

open StyleBinding in
def main (arguments : List String) : IO UInt32 := do
  let working := Text.steps (toString (← IO.currentDir))
  let texts := arguments.map Text.ofString
  let places := (texts.flatMap Loading.candidates).flatMap (Loading.locations working)
  let tree ← places.foldlM Loading.load { working, files := [] }
  let mode := ((← IO.getEnv "NODE_ENV").map Text.ofString).getD []
  let outcome := Program.run mode texts tree
  Loading.store tree outcome.world.files
  (← IO.getStdout).putStr outcome.world.output.characters
  (← IO.getStderr).putStr outcome.world.errors.characters
  if outcome.crash.isSome then
    (← IO.getStderr).putStrLn "jsx-stylesheet: unhandled failure"
  return UInt32.ofNat outcome.code
