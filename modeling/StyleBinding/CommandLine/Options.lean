import StyleBinding.CommandLine.Usage
import StyleBinding.Text.Similarity

/-!
# Options

How arguments are cut into options and positional arguments. A long option may
carry its value behind an equals sign; short options can be run together, and
the first of them that takes a value takes the rest of the argument. Two dashes
alone end the options, and one dash alone is a positional argument.
-/

namespace StyleBinding

/-- An option that a command knows: its long name with the dashes, the letter of
its short name, and whether it takes a value. -/
structure OptionForm where
  long : String
  short : Option Char := none
  takesValue : Bool := false
deriving DecidableEq

/-- An option as it was given. -/
structure GivenOption where
  form : OptionForm
  value : Option Text := none
deriving DecidableEq

/-- Arguments cut into options and positional arguments, both in order. -/
structure Arguments where
  options : List GivenOption := []
  positional : List Text := []
deriving DecidableEq

namespace Arguments

/-- Whether an option was given. -/
def has (a : Arguments) (form : OptionForm) : Bool := a.options.any (·.form == form)

/-- The values of an option, in order. -/
def values (a : Arguments) (form : OptionForm) : List Text :=
  a.options.filterMap fun o => if o.form == form then o.value else none

/-- The value of an option; the last one counts. -/
def value? (a : Arguments) (form : OptionForm) : Option Text := (a.values form).getLast?

/-! ## One argument -/

/-- What one argument gives: options, the last of which may still lack its value;
the name to complain about in that case. -/
structure Given where
  options : List GivenOption := []
  pending : Option (OptionForm × Text) := none

/-- An argument cut at its first equals sign. -/
def cutAtEquals (argument : Text) : Text × Option Text :=
  let name := argument.before '='
  (name, if name.length < argument.length then some (argument.drop (name.length + 1)) else none)

/-- Reads a long option. -/
def long (form : OptionForm) (name : Text) (value : Option Text) : Except UsageError Given :=
  match form.takesValue, value with
  | true, some v => .ok { options := [⟨form, some v⟩] }
  | true, none => .ok { pending := some (form, name) }
  | false, some _ => .error (.unexpectedValue name)
  | false, none => .ok { options := [⟨form, none⟩] }

/-- Reads short options run together. -/
def short (forms : List OptionForm) : Text → Except UsageError Given
  | [] => .ok {}
  | c :: rest =>
    match forms.find? fun f => f.short.any c.is with
    | none => .error (.noSuchOption [.scalar '-', c] [])
    | some form =>
      if form.takesValue then
        if rest.isEmpty then .ok { pending := some (form, [.scalar '-', c]) }
        else .ok { options := [⟨form, some rest⟩] }
      else (short forms rest).map fun g => { g with options := ⟨form, none⟩ :: g.options }

/-- Reads an argument that begins with a dash. -/
def option (forms : List OptionForm) (argument : Text) : Except UsageError Given :=
  let (name, value) := cutAtEquals argument
  match forms.find? fun f => Text.ofString f.long == name with
  | some form => long form name value
  | none =>
    if argument.startsWith "--" then
      .error (.noSuchOption name (Text.closeMatches name (forms.map fun f => f.long)))
    else short forms (argument.drop 1)

/-! ## All arguments -/

/-- Whether an argument is read as an option. -/
def isOption (argument : Text) : Bool := argument.startsWith "-" && 1 < argument.length

/-- Cuts arguments into options and positional arguments. Unless `interspersed`,
the first positional argument ends the options. -/
def parse (forms : List OptionForm) (interspersed : Bool) :
    List Text → Except UsageError Arguments
  | [] => .ok {}
  | argument :: rest =>
    if argument = ("--" : Text) then .ok { positional := rest }
    else if isOption argument then
      match option forms argument with
      | .error e => .error e
      | .ok { options, pending := none } =>
        (parse forms interspersed rest).map fun a => { a with options := options ++ a.options }
      | .ok { options, pending := some (form, name) } =>
        match rest with
        | [] => .error (.missingValue name)
        | value :: more =>
          (parse forms interspersed more).map fun a =>
            { a with options := options ++ ⟨form, some value⟩ :: a.options }
    else if interspersed then
      (parse forms interspersed rest).map fun a =>
        { a with positional := argument :: a.positional }
    else .ok { positional := argument :: rest }

end Arguments

end StyleBinding
