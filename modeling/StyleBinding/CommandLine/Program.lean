import StyleBinding.CommandLine.Inspect
import StyleBinding.CommandLine.Resolve

/-!
# The program

Options for the whole program come first, then a command with its own arguments.
Asking for help or for the version comes before everything else that arguments
which can be cut into options say.
-/

namespace StyleBinding

/-- How a run of the program went: its exit code, what it saw and changed, and the
failure that it did not handle. -/
structure Outcome where
  code : Nat
  world : World
  crash : Option Crash := none

namespace Program

/-! ## Commands -/

/-- Prints a help page and ends. -/
def showHelp (page : Text) : Run Unit := do
  Run.printLine page
  Run.stop (.exit 0)

/-- Runs a command with its arguments. -/
def runCommand (c : Command) (mode : Text) (verbose : Bool) (arguments : List Text) :
    Run Unit := do
  let a ← Run.orRefuse id (Arguments.parse c.forms true arguments)
  if a.has .help then showHelp (helpPage c.synopsis c.explanation)
  match c with
  | .transform => (← TransformPlan.ofArguments a mode verbose).run
  | .inspect => runInspect a mode
  | .resolve => runResolve a

/-! ## The whole program -/

/-- Answers the general options that ask for something at once, in their order. -/
def answerGeneral : List GivenOption → Run Unit
  | [] => pure ()
  | o :: rest => do
    if o.form = .version then
      Run.printLine versionLine
      Run.stop (.exit 0)
    if o.form = .help then showHelp (helpPage generalSynopsis generalExplanation)
    answerGeneral rest

/-- Reads the arguments in front of a command and answers what they ask for at
once. Without any arguments help is shown. -/
def readGeneral (arguments : List Text) : Run Arguments := do
  if arguments.isEmpty then showHelp (helpPage generalSynopsis generalExplanation)
  let a ← Run.orRefuse id (Arguments.parse OptionForm.general false arguments)
  answerGeneral a.options
  return a

/-- Whether a word looks like a misplaced option: it begins with something other
than a letter or a digit. -/
def looksMisplaced : Text → Bool
  | [] => false
  | c :: _ => !c.isWord || c.is '_'

/-- The command that a word names. A word that looks like a misplaced option gets
help instead of a refusal. -/
def readCommand (name : Text) : Run Command :=
  match Command.ofName? name with
  | some c => pure c
  | none => do
    if looksMisplaced name then showHelp (helpPage generalSynopsis generalExplanation)
    Run.stop (.usage (.noSuchCommand name))

/-- How a run ends, with the hint to be shown in front of a usage error. -/
def finish (hint : Text) (ended : Except Ending Unit × World) : Outcome :=
  match ended with
  | (.ok _, world) => { code := 0, world }
  | (.error (.exit code), world) => { code, world }
  | (.error (.crash c), world) => { code := 1, world, crash := some c }
  | (.error (.usage e), world) =>
    { code := 2
      world := world.writeError (Text.withoutControls (hint ++ "Error: " ++ e.message ++ "\n")) }

/-- Runs the command that the positional arguments name. -/
def dispatch (arguments : List Text) : Run (Command × Bool × List Text) := do
  let a ← readGeneral arguments
  match a.positional with
  | [] => Run.stop (.usage .missingCommand)
  | name :: rest =>
    let c ← readCommand name
    return (c, a.has .verbose, rest)

/-- Runs the program. `mode` is the environment mode unless an option gives one. -/
def run (mode : Text) (arguments : List Text) (files : FileTree) : Outcome :=
  match (dispatch arguments).run { files } with
  | (.error e, world) => finish (usageHint generalSynopsis "jsx-stylesheet") (.error e, world)
  | (.ok (c, verbose, rest), world) =>
    finish (usageHint c.synopsis ("jsx-stylesheet " ++ c.name))
      ((runCommand c mode verbose rest).run world)

end Program

end StyleBinding
