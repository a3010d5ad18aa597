import StyleBinding.CommandLine.FileTree
import StyleBinding.CommandLine.Usage
import StyleBinding.Json.Writer
import StyleBinding.Style.Resolution
import StyleBinding.Stylesheet.Pass
import StyleBinding.Text.ControlSequence

/-!
# Running commands

A command runs in a world of files and two streams of text. It ends with an exit
code, with a usage error, or by failing in a way that it does not handle; what
it has written until then stays. A file is opened, and so emptied, before its
new content is encoded, and a text with a surrogate cannot be encoded. What a
command tells its user holds no control sequences, whatever texts it shows; files
and the reports of the pass keep theirs.
-/

namespace StyleBinding

/-- A failure that a command does not handle. -/
inductive Crash where
  | file (e : FileError)
  | undecodable
  | unencodable
  | refused (r : Refusal)
  | unprintable (e : PrintError)
  | noSheet (e : Entries.UpdateError)
  | noStyle (e : StyleError)
  | unwritable (e : Json.WriteError)
  | oversizedInteger
deriving DecidableEq

/-- How a command ends before its last step. -/
inductive Ending where
  | exit (code : Nat)
  | usage (e : UsageError)
  | crash (c : Crash)
deriving DecidableEq

/-- What a command sees and changes. -/
structure World where
  files : FileTree
  output : Text := []
  errors : Text := []

namespace World

/-- A code point as it is written to the error stream. -/
def errorPoint (c : CodePoint) : Text :=
  if c.isSurrogate then "\\u" ++ Text.ofHex 4 c.toNat else [c]

/-- A world with a text written to the error stream. -/
def writeError (w : World) (t : Text) : World :=
  { w with errors := w.errors ++ t.flatMap errorPoint }

end World

/-- A step of a command: it changes the world and gives a result, or ends the
command. -/
abbrev Run (α : Type) := ExceptT Ending (StateM World) α

namespace Run

/-- Ends the command. -/
def stop {α : Type} (e : Ending) : Run α := throw e

/-- Ends the command by a failure that it does not handle. -/
def fail {α : Type} (c : Crash) : Run α := throw (.crash c)

/-- Goes on with a result, or fails. -/
def orFail {ε α : Type} (f : ε → Crash) : Except ε α → Run α
  | .ok a => pure a
  | .error e => fail (f e)

/-- Goes on with a result, or ends with a usage error. -/
def orRefuse {ε α : Type} (f : ε → UsageError) : Except ε α → Run α
  | .ok a => pure a
  | .error e => stop (.usage (f e))

/-! ## Streams -/

/-- Shows a text on the output. -/
def print (t : Text) : Run Unit :=
  let shown := t.withoutControls
  if shown.any (·.isSurrogate) then fail .unencodable
  else modify fun w => { w with output := w.output ++ shown }

/-- Shows a line on the output. -/
def printLine (t : Text) : Run Unit := print (t ++ "\n")

/-- Shows a line on the error stream. -/
def printError (t : Text) : Run Unit := modify (·.writeError (Text.withoutControls t ++ "\n"))

/-- Writes reports to the error stream as they are. -/
def log (events : List Event) : Run Unit :=
  events.forM fun e =>
    modify (·.writeError (e.level.name ++ " jsx_stylesheet: " ++ e.message ++ "\n"))

/-! ## Files -/

/-- The text of a file, with line feeds for line ends. -/
def readText (path : Text) : Run Text := do
  let world ← get
  let location ← orFail .file (world.files.findFile path)
  match Text.ofFile? ((world.files.content? location).getD []) with
  | some text => pure text
  | none => fail .undecodable

/-- Replaces the content of a file. -/
def setContent (location : Location) (content : Bytes) : Run Unit :=
  modify fun w => { w with files := w.files.write location content }

/-- Writes a text to a file. -/
def writeText (path text : Text) : Run Unit := do
  let world ← get
  let location ← orFail .file (world.files.findTarget path)
  setContent location []
  match text.toUtf8? with
  | some content => setContent location content
  | none => fail .unencodable

/-- Checks that a parameter names a file that is there. -/
def requireFile (parameter path : Text) : Run Unit := do
  match (← get).files.find path with
  | .error .notAPath => fail (.file .notAPath)
  | .error _ => stop (.usage (.fileNotFound parameter path))
  | .ok (.directory _) => stop (.usage (.fileIsDirectory parameter path))
  | .ok (.file _) => pure ()

/-- Checks that a parameter names no directory. -/
def refuseDirectory (parameter path : Text) : Run Unit := do
  match (← get).files.find path with
  | .error .notAPath => fail (.file .notAPath)
  | .ok (.directory _) => stop (.usage (.fileIsDirectory parameter path))
  | _ => pure ()

end Run

end StyleBinding
