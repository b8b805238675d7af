import Coordination.Text.Segments
/-!
# Arguments and options

An option is given by its long name, with its value behind an equals sign or in the next argument,
or by an environment variable.  An option may be given only once on the command line, which takes
precedence over the environment.
-/

namespace Coordination

/-- Why a command line is not carried out. -/
inductive UsageError where
  /-- Help is asked for. -/
  | help
  /-- The version is asked for. -/
  | version
  /-- Nothing is asked for at all. -/
  | nothingAsked
  | missingCommand
  | unknownCommand
  | unknownArgument
  /-- A required option is not given. -/
  | missingOption
  /-- An option has no value, or an empty one where that is no value. -/
  | missingValue
  /-- The value of an option has the wrong form. -/
  | malformedValue
  /-- A value is given where none is taken. -/
  | needlessValue
  /-- An option is given twice. -/
  | repeatedOption
deriving DecidableEq, Repr

namespace UsageError

def name : UsageError → String
  | help => "DisplayHelp"
  | version => "DisplayVersion"
  | nothingAsked => "DisplayHelpOnMissingArgumentOrSubcommand"
  | missingCommand => "MissingSubcommand"
  | unknownCommand => "InvalidSubcommand"
  | unknownArgument => "UnknownArgument"
  | missingOption => "MissingRequiredArgument"
  | missingValue => "InvalidValue"
  | malformedValue => "ValueValidation"
  | needlessValue => "TooManyValues"
  | repeatedOption => "ArgumentConflict"

/-- The exit code: an answer that was asked for is no failure. -/
def exitCode : UsageError → Nat
  | help => 0
  | version => 0
  | _ => 2

end UsageError

/-- A number: decimal digits, perhaps behind a plus sign, within sixty-four bits. -/
def readNumber? (s : String) : Option Nat :=
  let digits := match s.toList with
    | '+' :: rest => rest
    | cs => cs
  if digits.isEmpty || !digits.all Char.isDigit then none
  else
    let n := digits.foldl (fun n c => 10 * n + (c.toNat - '0'.toNat)) 0
    if n < UInt64.size then some n else none

/-- What the value of an option is. -/
inductive ValueKind where
  | text
  | seconds
  | path
deriving DecidableEq, Repr

def ValueKind.check (k : ValueKind) (value : String) : Except UsageError Unit :=
  match k with
  | .text => .ok ()
  | .seconds => if (readNumber? value).isSome then .ok () else .error .malformedValue
  | .path => if value = "" then .error .missingValue else .ok ()

structure CommandOption where
  /-- The long name. -/
  name : String
  kind : ValueKind := .text
  required : Bool := false
deriving DecidableEq, Repr

namespace CommandOption

def environmentName (o : CommandOption) : String :=
  "SWITCHBOARD_" ++ Text.replaceChar '-' "_" o.name.toUpper

end CommandOption

/-- Where the value of an option comes from. -/
inductive Source where
  | environment
  | commandLine
deriving DecidableEq, Repr

/-- A value that is given for an option. -/
structure Given where
  name : String
  value : String
  source : Source
deriving DecidableEq, Repr

inductive Argument where
  /-- Two dashes: no options follow. -/
  | separator
  /-- The long name of an option, perhaps with a value. -/
  | long (name : String) (value : Option String)
  /-- The short name of an option. -/
  | short (letter : Char)
  /-- Anything else; a dash alone is a value. -/
  | plain
deriving DecidableEq, Repr

/-- The form of an argument. -/
def Argument.ofString (s : String) : Argument :=
  match s.toList with
  | ['-', '-'] => .separator
  | '-' :: '-' :: rest =>
    match Text.splitChars '=' rest with
    | name :: value :: more =>
      .long (String.ofList name) (some (String.ofList (Text.joinChars '=' (value :: more))))
    | _ => .long (String.ofList rest) none
  | '-' :: letter :: _ => .short letter
  | _ => .plain

end Coordination
