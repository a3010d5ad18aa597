import StyleBinding.CommandLine.Help
import StyleBinding.CommandLine.Run

/-!
# Transforming files

The command that runs the pass over files. Each result goes to the output, to
another file, or in place of the file it came from if it differs; a check only
tells which files would change. The first file that is no module ends the
command.
-/

namespace StyleBinding

/-- The settings that options describe; `mode` is the environment mode unless an
option gives one. -/
def Arguments.settings (a : Arguments) (mode : Text) : Except SettingsError Settings :=
  let extensions : Except SettingsError (List Text) :=
    match a.values .extension with
    | [] => .ok Settings.defaultExtensions
    | written => Settings.requireExtensions (written.map .text)
  extensions.map fun extensions =>
    { keepClasses := a.has .keepClasses
      extensions
      mode := (a.value? .environment).getD mode }

/-- Where the results of a transform go. -/
inductive Destination where
  | output
  | file (path : Text)
  | inPlace
  | nowhere
deriving DecidableEq

/-- What a transform is to do. -/
structure TransformPlan where
  files : List Text
  settings : Settings
  destination : Destination
  verbose : Bool

namespace TransformPlan

/-! ## One file -/

/-- The result for the text of a file. -/
def result (p : TransformPlan) (path source : Text) : Run Text := do
  match Document.parse source with
  | .error (.syntaxError e) =>
    Run.printError ("Parse error in " ++ path.tidy ++ ": " ++ e.report source)
    Run.stop (.exit 1)
  | .error r => Run.fail (.refused r)
  | .ok d =>
    if p.verbose then Run.log (d.report p.settings)
    Run.orFail .unprintable (d.transform p.settings).print

/-- Sends a result where it is to go. -/
def deliver (p : TransformPlan) (path source result : Text) : Run Unit :=
  match p.destination with
  | .output => Run.print result
  | .file target => Run.writeText target result
  | .inPlace => if result = source then pure () else Run.writeText path result
  | .nowhere => pure ()

/-- Transforms a file and tells whether the result differs. -/
def transformFile (p : TransformPlan) (path : Text) : Run Bool := do
  let source ← Run.readText path
  let result ← p.result path source
  p.deliver path source result
  return result != source

/-! ## All files -/

/-- Transforms files in order and gives the paths of those whose result differs. -/
def transformFiles (p : TransformPlan) : List Text → Run (List Text)
  | [] => pure []
  | path :: rest => do
    let changed ← p.transformFile path
    let others ← transformFiles p rest
    return if changed then path :: others else others

/-- Carries the plan out. -/
def run (p : TransformPlan) : Run Unit := do
  let changed ← p.transformFiles p.files
  if p.destination = .nowhere then
    changed.forM fun path => Run.printLine ("would transform " ++ path)
    Run.stop (.exit (if changed.isEmpty then 0 else 1))

/-! ## Arguments -/

/-- Where the results go that the options of a transform ask for. -/
def destinationOf (a : Arguments) (target : Option Text) : Destination :=
  if a.has .check then .nowhere
  else if a.has .inPlace then .inPlace
  else
    match target with
    | some path => .file path
    | none => .output

/-- The plan that arguments describe. An empty target is none. -/
def ofArguments (a : Arguments) (mode : Text) (verbose : Bool) : Run TransformPlan := do
  (a.value? .output).forM (Run.refuseDirectory "'-o' / '--output'")
  if a.positional.isEmpty then Run.stop (.usage (.missingArgument "FILES..."))
  a.positional.forM (Run.requireFile "'FILES...'")
  let target := (a.value? .output).filter (!·.isEmpty)
  if target.isSome && a.has .inPlace then Run.stop (.usage .outputInPlace)
  if target.isSome && 1 < a.positional.length then Run.stop (.usage .outputOfSeveral)
  let settings ← Run.orRefuse .badExtension (a.settings mode)
  return { files := a.positional, settings, destination := destinationOf a target, verbose }

end TransformPlan

end StyleBinding
