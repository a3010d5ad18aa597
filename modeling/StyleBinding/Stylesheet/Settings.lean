import StyleBinding.Text.Lowercase
import StyleBinding.Text.Path
import StyleBinding.Value.Entries

/-!
# Settings

Which imports are stylesheets, and what becomes of class attributes. Extensions
are kept in lower case, with a full stop in front and in ascending order.
Settings are read from the options of a host; each option has several names, and
the last of them that is given counts.
-/

namespace StyleBinding

/-- Why settings are refused. -/
inductive SettingsError where
  | invalidExtension (extension : Text)
  | noExtension
  | extensionNotAText
  | extensionsNotIterable
deriving DecidableEq

/-- The wording of a settings error. -/
def SettingsError.message : SettingsError → Text
  | invalidExtension extension => "Invalid stylesheet extension: " ++ Text.quoted extension
  | noExtension => "At least one stylesheet extension is required"
  | extensionNotAText => "An extension must be a text"
  | extensionsNotIterable => "Extensions must be a text or a list"

/-- The settings of the pass: whether class attributes are kept, the extensions of
stylesheets, and the mode of the environment. -/
structure Settings where
  keepClasses : Bool
  extensions : List Text
  mode : Text
deriving DecidableEq

namespace Settings

/-! ## Extensions -/

/-- An extension in lower case with a full stop in front. -/
def canonicalExtension (written : Text) : Except SettingsError Text :=
  let extension := written.trim.lower
  if extension = [] ∨ extension = [.scalar '.'] then .error (.invalidExtension extension)
  else .ok (if extension.startsWith "." then extension else .scalar '.' :: extension)

/-- The text that a value is. -/
def textOf : Value → Except SettingsError Text
  | .scalar (.text t) => .ok t
  | _ => .error .extensionNotAText

/-- The distinct canonical forms of extensions, in ascending order. -/
def canonicalExtensions (written : List Value) : Except SettingsError (List Text) :=
  (written.mapM fun v => (textOf v).bind canonicalExtension).map Text.ascending

/-- The canonical forms of extensions, of which there must be one. -/
def requireExtensions (written : List Value) : Except SettingsError (List Text) :=
  match canonicalExtensions written with
  | .error e => .error e
  | .ok [] => .error .noExtension
  | .ok extensions => .ok extensions

/-- The extensions of stylesheets unless an option says otherwise. -/
def defaultExtensions : List Text := [".css", ".less", ".sass", ".scss"]

/-! ## Options -/

/-- The last given value among the names of an option. -/
def option? (options : Entries) (names : List Text) : Option Value :=
  names.reverse.findSome? fun name => Entries.get? (.scalar (.text name)) options

/-- The values that are listed as extensions; a text is a list of itself alone. -/
def extensionValues : Value → Except SettingsError (List Value)
  | .scalar (.text t) => .ok [.text t]
  | value =>
    match value.elements? with
    | some values => .ok values
    | none => .error .extensionsNotIterable

/-- The settings that options describe. `mode` is the environment mode unless an
option gives one. -/
def ofOptions (options : Entries) (mode : Text) : Except SettingsError Settings :=
  let extensions : Except SettingsError (List Text) :=
    match option? options ["stylesheet_extensions", "styleSheetExtensions", "extensions"] with
    | none => .ok defaultExtensions
    | some value => (extensionValues value).bind requireExtensions
  extensions.map fun extensions =>
    { keepClasses :=
        ((option? options ["retain_class_name", "retainClassName"]).map (·.isTruthy)).getD false
      extensions
      mode :=
        ((option? options ["environment_mode", "environmentMode"]).map (·.display)).getD mode }

/-- The settings without options. -/
def default (mode : Text) : Settings := ⟨false, defaultExtensions, mode⟩

/-! ## Questions -/

/-- Whether the environment is one for development. -/
def isDevelopment (s : Settings) : Bool := s.mode = ("development" : Text)

/-- Whether a path names a stylesheet. -/
def isStylesheet (s : Settings) (path : Text) : Bool :=
  s.extensions.contains path.withoutQuery.extension.lower

end Settings

end StyleBinding
