import StyleBinding.CommandLine.Help
import StyleBinding.CommandLine.Run
import StyleBinding.Json.Reader

/-!
# Resolving class names

The command that shows the style of a class value under stylesheets read from
JSON files. The value is a class text, or JSON when it begins like a list or an
object.
-/

namespace StyleBinding

namespace Resolution

/-- Reads a stylesheet, which must be a JSON object. -/
def readSheet (path : Text) : Run Value := do
  let source ← Run.readText path
  match Json.read source with
  | .error (.malformed cause offset) =>
    Run.printError ("Invalid stylesheet JSON in " ++ path ++ ": " ++ cause.report source offset)
    Run.stop (.exit 1)
  | .error .oversizedInteger => Run.fail .oversizedInteger
  | .ok (.mapping entries) => return .mapping entries
  | .ok _ =>
    Run.printError ("Stylesheet " ++ path ++ " must be a JSON object")
    Run.stop (.exit 1)

/-- Whether a class value is written in JSON. -/
def isJson (written : Text) : Bool :=
  written.trimStart.startsWith "[" || written.trimStart.startsWith "\x7b"

/-- The class value that an argument writes. -/
def classValue (written : Text) : Run Value :=
  if isJson written then
    match Json.read written with
    | .error (.malformed cause offset) => Run.stop (.usage (.badValue written cause offset))
    | .error .oversizedInteger => Run.fail .oversizedInteger
    | .ok value => pure value
  else pure (.text written)

/-- Shows the style of a class value under the stylesheets of the given files, the
later ones winning. -/
def showStyle (written : Text) (paths : List Text) : Run Unit := do
  let sheets ← paths.mapM readSheet
  let value ← classValue written
  let merged ← Run.orFail .noSheet (mergeSheets sheets)
  let style ← Run.orFail .noStyle (styleOf (.mapping merged) value)
  let text ← Run.orFail .unwritable (Json.write style)
  Run.printLine text

/-- The names of the option that gives a stylesheet. -/
def sheetNames : List Text := ["-s", "--stylesheet"]

end Resolution

/-- Shows the style that arguments ask for. -/
def runResolve (a : Arguments) : Run Unit := do
  let paths := a.values .stylesheet
  paths.forM (Run.requireFile (UsageError.quotedNames Resolution.sheetNames))
  match a.positional with
  | [] => Run.stop (.usage (.missingArgument "VALUE"))
  | written :: more =>
    if paths.isEmpty then Run.stop (.usage (.missingOption Resolution.sheetNames))
    if !more.isEmpty then Run.stop (.usage (.unexpectedArguments more))
    Resolution.showStyle written paths

end StyleBinding
