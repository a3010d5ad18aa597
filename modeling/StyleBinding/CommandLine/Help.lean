import StyleBinding.CommandLine.Options

/-!
# Commands and their help

The commands of the program, the options that each of them takes, and the pages
that explain them.
-/

namespace StyleBinding

/-! ## Options -/

namespace OptionForm

/-- Asks for a help page. -/
def help : OptionForm := { long := "--help" }

/-- Asks for the version. -/
def version : OptionForm := { long := "--version" }

/-- Asks for the reports of the pass. -/
def verbose : OptionForm := { long := "--verbose", short := some 'v' }

/-- Gives an extension of stylesheets, in place of the usual ones. -/
def extension : OptionForm := { long := "--extension", takesValue := true }

/-- Keeps class attributes beside the new styles. -/
def keepClasses : OptionForm := { long := "--retain-class-name" }

/-- Gives the environment mode. -/
def environment : OptionForm := { long := "--env", takesValue := true }

/-- Names the file that the result goes to. -/
def output : OptionForm := { long := "--output", short := some 'o', takesValue := true }

/-- Puts results in place of the files they came from. -/
def inPlace : OptionForm := { long := "--in-place" }

/-- Tells only which files would change. -/
def check : OptionForm := { long := "--check" }

/-- Names a file that holds a stylesheet. -/
def stylesheet : OptionForm := { long := "--stylesheet", short := some 's', takesValue := true }

/-- The options in front of a command. -/
def general : List OptionForm := [version, verbose, help]

end OptionForm

/-! ## Commands -/

/-- What the program can be asked to do. -/
inductive Command where
  | transform
  | inspect
  | resolve
deriving DecidableEq

namespace Command

/-- The name of a command. -/
def name : Command → Text
  | transform => "transform"
  | inspect => "inspect"
  | resolve => "resolve"

/-- The command of a name. -/
def ofName? (name : Text) : Option Command :=
  [transform, inspect, resolve].find? fun c => c.name == name

/-- The options of a command. -/
def forms : Command → List OptionForm
  | transform => [.keepClasses, .extension, .environment, .output, .inPlace, .check, .help]
  | inspect => [.extension, .help]
  | resolve => [.stylesheet, .help]

/-- How a command is called. -/
def synopsis : Command → String
  | transform => "jsx-stylesheet transform [OPTIONS] FILES..."
  | inspect => "jsx-stylesheet inspect [OPTIONS] FILE"
  | resolve => "jsx-stylesheet resolve [OPTIONS] VALUE"

/-- The lines that explain a command. -/
def explanation : Command → List String
  | transform =>
    ["  Resolve className attributes of JSX modules into style attributes.",
      "",
      "  Prints the transformed module to stdout unless --output, --in-place or",
      "  --check is given.",
      "",
      "Options:",
      "  --retain-class-name  Keep className next to the new style.",
      "  --extension TEXT     Stylesheet file extension (repeatable); replaces the",
      "                       default set.",
      "  --env TEXT           Environment mode (default: $NODE_ENV).",
      "  -o, --output FILE    Write to this file.",
      "  --in-place           Overwrite each input file.",
      "  --check              Exit with code 1 if any file would change.",
      "  --help               Show this message and exit."]
  | inspect =>
    ["  Parse a module and display its stylesheet imports and class usage.",
      "",
      "  Shows every stylesheet import, the accessor expression the module would",
      "  bind, and the classification of each element with a className or style.",
      "",
      "Options:",
      "  --extension TEXT  Stylesheet file extension (repeatable); replaces the",
      "                    default set.",
      "  --help            Show this message and exit."]
  | resolve =>
    ["  Resolve VALUE against stylesheets as the injected _getStyle helper would.",
      "",
      "  VALUE is a class string (\"header active\"), or a JSON array or object",
      "  ('[\"header\", \x7b\"active\": true\x7d]'). Several stylesheets are merged in the",
      "  order given, later ones winning.",
      "",
      "Options:",
      "  -s, --stylesheet FILE  JSON class-to-style mapping produced by the stylesheet",
      "                         loader (repeatable).  [required]",
      "  --help                 Show this message and exit."]

end Command

/-! ## Pages -/

/-- How the program is called. -/
def generalSynopsis : String := "jsx-stylesheet [OPTIONS] COMMAND [ARGS]..."

/-- The lines that explain the program. -/
def generalExplanation : List String :=
  ["  jsx-stylesheet - resolve JSX class names against imported stylesheets.",
    "",
    "Options:",
    "  --version      Show the version and exit.",
    "  -v, --verbose  Log what the transform does.",
    "  --help         Show this message and exit.",
    "",
    "Commands:",
    "  inspect    Parse a module and display its stylesheet imports and class...",
    "  resolve    Resolve VALUE against stylesheets as the injected _getStyle...",
    "  transform  Resolve className attributes of JSX modules into style..."]

/-- A page from a synopsis and lines that explain it. -/
def helpPage (synopsis : String) (explanation : List String) : Text :=
  Text.join "\n" ((("Usage: " ++ synopsis) :: "" :: explanation).map Text.ofString)

/-- What is said in front of a usage error: the synopsis, and where to find help
for the program or the command of the given name. -/
def usageHint (synopsis : String) (name : Text) : Text :=
  "Usage: " ++ synopsis ++ "\nTry '" ++ name ++ " --help' for help.\n\n"

/-- The line that tells the version. -/
def versionLine : Text := "jsx-stylesheet, version 0.1.0"

end StyleBinding
