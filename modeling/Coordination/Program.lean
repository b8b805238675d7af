import Coordination.LogFilter
import Coordination.Reproducible
import Coordination.Service
/-!
# The program

The program reads its command line and works until it ends.  A failure is the last line of its log.
-/

namespace Coordination

/-- A line that the program writes. -/
inductive OutputLine where
  | version (number : String)
  | log (asJson : Bool) (level : LogLevel) (target message : String)
deriving DecidableEq, Repr

/-- How the program ends. -/
structure Outcome where
  code : Nat
  lines : List OutputLine := []
deriving DecidableEq, Repr

namespace Program

def name : String := "switchboard"

def version : String := "0.1.0"

/-- The end of the program after a command line that is not carried out. -/
def refuse (e : UsageError) : Outcome :=
  { code := e.exitCode, lines := if e = .version then [.version version] else [] }

def fail (c : CommandLine) (f : Failure) : Outcome :=
  { code := 1
    lines := if (LogFilter.ofText c.logLevel).shows .error name then
        [.log (c.logFormat = "json") .error name ("fatal: " ++ f.fault.chain)]
      else [] }

/-- Runs the program where neither a web server nor a broker can be reached. -/
def run (files : String → Option String) (environment : List (String × String))
    (args : List String) : Outcome :=
  match CommandLine.read environment args with
  | .error e => refuse e
  | .ok c =>
    match Participant.create .plain serialId files c.command with
    | .error f => fail c f
    | .ok participant =>
      let nowhere : NatsServer := { uri := "", away := true }
      match ({ participant, server := nowhere, web := {} } : Service).start 0 0 |>.ended with
      | some (.error f) => fail c f
      | _ => { code := 0 }

end Program

end Coordination
