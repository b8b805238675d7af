import Coordination.Json.Printer
import Coordination.Program
/-!
# The executable

Reads arguments, environment and files, and writes what the program has to say.
-/

namespace Coordination

/-- The environment variables that give options. -/
def readEnvironment : IO (List (String × String)) := do
  let names := (CommandLine.authorityLevel.options ++ CommandLine.hostLevel.options).map
    CommandOption.environmentName
  names.eraseDups.filterMapM fun name => do
    return (← IO.getEnv name).map fun value => (name, value)

/-- The text of a file, if it can be read. -/
def readFile? (path : String) : IO (Option String) := do
  try
    return some (← IO.FS.readFile path)
  catch _ => return none

/-- The file from which records are read, if the command line names one. -/
def recordsPath? (environment : List (String × String)) (args : List String) : Option String :=
  match CommandLine.read environment args with
  | .ok ⟨.authority _ _ path, _, _⟩ => path
  | _ => none

def OutputLine.render : OutputLine → String
  | version number => Program.name ++ " " ++ number
  | log false level target message => level.name ++ " " ++ target ++ ": " ++ message
  | log true level target message =>
    (Json.Value.ofMembers [("level", .string level.name), ("target", .string target),
      ("fields", .ofMembers [("message", .string message)])]).render

end Coordination

open Coordination in
def main (args : List String) : IO UInt32 := do
  let environment ← readEnvironment
  let file ← match recordsPath? environment args with
    | some path => readFile? path
    | none => pure none
  let outcome := Program.run (fun _ => file) environment args
  for line in outcome.lines do
    IO.println line.render
  return UInt32.ofNat outcome.code
