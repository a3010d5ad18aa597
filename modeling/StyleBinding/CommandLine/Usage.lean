import StyleBinding.Json.Lexical
import StyleBinding.Stylesheet.Settings

/-!
# Usage errors

What can be wrong with the arguments of a command, and how it is said.
-/

namespace StyleBinding

/-- What is wrong with the arguments of a command. -/
inductive UsageError where
  | noSuchOption (name : Text) (similar : List Text)
  | missingValue (option : Text)
  | unexpectedValue (option : Text)
  | missingCommand
  | noSuchCommand (name : Text)
  | missingArgument (name : Text)
  | missingOption (names : List Text)
  | unexpectedArguments (arguments : List Text)
  | fileNotFound (parameter : Text) (path : Text)
  | fileIsDirectory (parameter : Text) (path : Text)
  | outputInPlace
  | outputOfSeveral
  | badExtension (e : SettingsError)
  | badValue (source : Text) (cause : Json.Cause) (offset : Nat)
deriving DecidableEq

namespace UsageError

/-- The names of an option, each in quotes. -/
def quotedNames (names : List Text) : Text :=
  Text.join " / " (names.map fun n => "'" ++ n ++ "'")

/-- The refusal of the value of a parameter. -/
def invalidValue (parameter reason : Text) : Text :=
  "Invalid value for " ++ parameter ++ ": " ++ reason

/-- The options that may have been meant. -/
def suggestion : List Text → Text
  | [] => []
  | [name] => " Did you mean " ++ name ++ "?"
  | names => " (Possible options: " ++ Text.join ", " (Text.ascending names) ++ ")"

/-- The wording of a usage error. -/
def message : UsageError → Text
  | noSuchOption name similar => "No such option: " ++ name ++ suggestion similar
  | missingValue option => "Option " ++ Text.quoted option ++ " requires an argument."
  | unexpectedValue option => "Option " ++ Text.quoted option ++ " does not take a value."
  | missingCommand => "Missing command."
  | noSuchCommand name => "No such command " ++ Text.quoted name ++ "."
  | missingArgument name => "Missing argument '" ++ name ++ "'."
  | missingOption names => "Missing option " ++ quotedNames names ++ "."
  | unexpectedArguments arguments =>
    "Got unexpected extra argument" ++ (if arguments.length = 1 then ([] : Text) else "s") ++
      " (" ++ Text.join " " arguments ++ ")"
  | fileNotFound parameter path =>
    invalidValue parameter ("File " ++ Text.quoted path ++ " does not exist.")
  | fileIsDirectory parameter path =>
    invalidValue parameter ("File " ++ Text.quoted path ++ " is a directory.")
  | outputInPlace => "--output and --in-place are mutually exclusive"
  | outputOfSeveral => "--output needs exactly one input file"
  | badExtension e => invalidValue "--extension" e.message
  | badValue source cause offset =>
    invalidValue "VALUE" ("not valid JSON: " ++ cause.report source offset)

end UsageError

end StyleBinding
