import Coordination.CommandLine.Argument
/-!
# Scanning arguments

The arguments of a command are scanned from left to right.  An option whose value is to come is kept
open, and a value is checked only when the option after it begins or when the arguments end.
-/

namespace Coordination

/-- What may be given at one level of the command line. -/
structure CommandLevel where
  options : List CommandOption
  /-- The commands; without any this is the level of a command. -/
  commands : List String := []
  /-- Whether the version may be asked for. -/
  hasVersion : Bool := false
deriving DecidableEq, Repr

namespace CommandLevel

def option? (l : CommandLevel) (name : String) : Option CommandOption :=
  l.options.find? fun o => o.name == name

/-- What is wrong with an argument that is neither an option nor the value of one. -/
def stray (l : CommandLevel) : UsageError :=
  if l.commands = [] then .unknownArgument else .unknownCommand

/-- What is wrong with an argument behind the separator; a command cannot stand there. -/
def strayBehind (l : CommandLevel) (arg : String) : UsageError :=
  if arg ∈ l.commands then .unknownArgument else l.stray

/-- The answer that an option without a value asks for. -/
def answer? (l : CommandLevel) : Argument → Option UsageError
  | .long "help" _ => some .help
  | .short 'h' => some .help
  | .long "version" _ => if l.hasVersion then some .version else none
  | .short 'V' => if l.hasVersion then some .version else none
  | _ => none

end CommandLevel

/-- How far a scan has come. -/
structure Scan where
  /-- The values that were checked. -/
  given : List Given := []
  /-- The last option and its value, if it has one yet. -/
  last : Option (CommandOption × Option String) := none
deriving DecidableEq, Repr

namespace Scan

/-- Checks the value of an option and takes it. -/
def take (s : Scan) (o : CommandOption) (value : String) : Except UsageError Scan :=
  if s.given.any fun g => g.name == o.name then .error .repeatedOption
  else (o.kind.check value).map fun _ =>
    { s with given := s.given ++ [⟨o.name, value, .commandLine⟩] }

/-- Takes the value of the last option. -/
def settle (s : Scan) : Except UsageError Scan :=
  match s.last with
  | none => .ok s
  | some (_, none) => .error .missingValue
  | some (o, some value) => { s with last := none }.take o value

/-- The option whose value is to come. -/
def expecting? (s : Scan) : Option CommandOption :=
  match s.last with
  | some (o, none) => some o
  | _ => none

/-- Takes an option with or without a value. -/
def option (s : Scan) (o : CommandOption) (value : Option String) : Except UsageError Scan := do
  let s ← s.settle
  match value with
  | some v => s.take o v
  | none => return { s with last := some (o, none) }

/-- Takes an argument that looks like an option. -/
def optionArgument (l : CommandLevel) (s : Scan) (a : Argument) : Except UsageError Scan :=
  match l.answer? a, a with
  | some _, .long _ (some _) => .error .needlessValue
  | some e, _ => s.settle.bind fun _ => .error e
  | none, .long name value =>
    match l.option? name with
    | some o => s.option o value
    | none => .error .unknownArgument
  | none, _ => .error .unknownArgument

end Scan

/-- Where a scan ended: at the end, or at a command and the arguments behind it. -/
abbrev ScanEnd := Scan × Option (String × List String)

/-- Scans arguments until a command or the end. -/
def CommandLevel.scan (l : CommandLevel) : Scan → List String → Except UsageError ScanEnd
  | s, [] => s.settle.map fun s => (s, none)
  | s, arg :: rest =>
    -- the name of a command is a value where one is expected
    if s.expecting?.isNone && l.commands.contains arg then .ok (s, some (arg, rest))
    else match Argument.ofString arg with
      | .separator =>
        match rest with
        | [] => s.settle.map fun s => (s, none)
        | next :: _ => .error (l.strayBehind next)
      | .plain =>
        match s.expecting? with
        | some o => l.scan { s with last := some (o, some arg) } rest
        | none => .error l.stray
      | a =>
        match s.optionArgument l a with
        | .ok s => l.scan s rest
        | .error e => .error e

/-- Adds the values that the environment gives for options that are not given yet. -/
def addEnvironment (environment : List (String × String)) :
    List Given → List CommandOption → Except UsageError (List Given)
  | given, [] => .ok given
  | given, o :: rest =>
    if given.any fun g => g.name == o.name then addEnvironment environment given rest
    else match environment.lookup o.environmentName with
      | none => addEnvironment environment given rest
      | some value => do
        o.kind.check value
        addEnvironment environment (given ++ [⟨o.name, value, .environment⟩]) rest

end Coordination
