import Coordination.CommandLine.Scan
import Coordination.Host.Basic
/-!
# The command line

The program runs in the role of an authority or of a host.  How it logs may be said in front of the
command or behind it.
-/

namespace Coordination

/-- The role in which the program runs. -/
inductive Command where
  | authority (discovery : DiscoveryConfig) (accessToken : String) (records : Option String)
  | host (config : HostConfig)
deriving DecidableEq, Repr

structure CommandLine where
  command : Command
  logFormat : String
  logLevel : String
deriving DecidableEq, Repr

namespace CommandLine

/-- The options that may stand at both levels. -/
def logOptions : List CommandOption := [{ name := "log-format" }, { name := "log-level" }]

/-- The options that say where to find the authority. -/
def discoveryOptions : List CommandOption :=
  [{ name := "authority-uri", required := true }, { name := "authority-uri-internal" },
   { name := "broker-uri" }, { name := "max-backoff-secs", kind := .seconds }]

/-- The level in front of the command. -/
def outerLevel : CommandLevel :=
  { options := logOptions, commands := ["authority", "host", "help"], hasVersion := true }

def authorityLevel : CommandLevel where
  options := discoveryOptions ++
    [{ name := "access-token", required := true }, { name := "records", kind := .path }] ++
    logOptions

def hostLevel : CommandLevel where
  options := discoveryOptions ++
    [{ name := "host-id", required := true }, { name := "host-secret", required := true },
     { name := "host-name" }, { name := "retry-secs", kind := .seconds }] ++ logOptions

/-! ## Values -/

/-- What is given for an option. -/
def given? (gs : List Given) (name : String) : Option Given := gs.find? fun g => g.name == name

def value? (gs : List Given) (name : String) : Option String := (given? gs name).map Given.value

def text (gs : List Given) (name : String) : String := (value? gs name).getD ""

def seconds (gs : List Given) (name : String) (otherwise : Nat) : Nat :=
  ((value? gs name).bind readNumber?).getD otherwise

/-- Where to find the authority; the longest delay is at least a second. -/
def discoveryConfig (gs : List Given) : DiscoveryConfig where
  authorityUri := text gs "authority-uri"
  internalUri := value? gs "authority-uri-internal"
  brokerUri := value? gs "broker-uri"
  maxBackoff := .ofSeconds (max 1 (seconds gs "max-backoff-secs" 16))

/-- The command that is given at the level of a command. -/
def commandOf (name : String) (gs : List Given) : Command :=
  if name = "authority" then
    .authority (discoveryConfig gs) (text gs "access-token") (value? gs "records")
  else .host
    { discovery := discoveryConfig gs, hostId := text gs "host-id"
      hostSecret := text gs "host-secret", hostName := value? gs "host-name"
      retryDelay := .ofSeconds (seconds gs "retry-secs" 10) }

/-- The value of an option that may stand at both levels: the command line takes precedence over the
environment, and the level of the command over the other. -/
def shared (outer inner : List Given) (name otherwise : String) : String :=
  match given? outer name, given? inner name with
  | some a, some b =>
    if a.source = .commandLine && b.source = .environment then a.value else b.value
  | some a, none => a.value
  | none, some b => b.value
  | none, none => otherwise

/-! ## Reading -/

/-- The answer to a request for help on a command. -/
def helpOn : List String → UsageError
  | [] => .help
  | [name] => if name ∈ outerLevel.commands then .help else .unknownCommand
  | _ => .unknownCommand

/-- What is wrong with a command line without a command. -/
def withoutCommand (given : List Given) : UsageError :=
  if given = [] then .nothingAsked else .missingCommand

/-- Refuses a command for which a required option is not given. -/
def requireAll (l : CommandLevel) (gs : List Given) : Except UsageError Unit :=
  if l.options.all fun o => !o.required || (given? gs o.name).isSome then .ok ()
  else .error .missingOption

/-- Reads the arguments behind the name of the program. -/
def read (environment : List (String × String)) (args : List String) :
    Except UsageError CommandLine := do
  let (scan, next) ← outerLevel.scan {} args
  match next with
  | none =>
    let given ← addEnvironment environment scan.given outerLevel.options
    .error (withoutCommand given)
  | some (name, rest) =>
    if name = "help" then .error (helpOn rest)
    else
      let level := if name = "authority" then authorityLevel else hostLevel
      let (innerScan, _) ← level.scan {} rest
      let inner ← addEnvironment environment innerScan.given level.options
      requireAll level inner
      -- the level of the command is read before the outer one is closed
      let settled ← scan.settle
      let outer ← addEnvironment environment settled.given outerLevel.options
      return { command := commandOf name inner
               logFormat := shared outer inner "log-format" "text"
               logLevel := shared outer inner "log-level" "info" }

end CommandLine

end Coordination
