import Coordination.Agent
/-!
# Agent factories

A host has its agents made by a factory, drives them through their lives and hands them back in the
end.  Every call of a factory or of an agent that it made may fail, for whatever reason; a factory
remembers the calls.
-/

namespace Coordination

/-- What is done to an agent in the course of its life. -/
inductive AgentStage where
  | create
  | connect
  | disconnect
  | dispose
deriving DecidableEq, Repr

namespace AgentStage

def name : AgentStage → String
  | create => "create"
  | connect => "connect"
  | disconnect => "disconnect"
  | dispose => "dispose"

/-- The word for a call of a stage that was made. -/
def pastName : AgentStage → String
  | create => "created"
  | connect => "connected"
  | disconnect => "disconnected"
  | dispose => "disposed"

end AgentStage

/-- A call of a factory or of an agent. -/
structure AgentCall where
  stage : AgentStage
  agentId : String
  /-- The name of the agent. -/
  name : String
  succeeded : Bool
deriving DecidableEq, Repr

/-- The agents that a factory makes. -/
inductive AgentKind where
  /-- Agents that do nothing. -/
  | inert
  /-- Agents that fetch credentials, with the key pairs that they get in order of creation. -/
  | usual (config : ClientConfig) (keys : Nat → Except Error KeyPair)

structure AgentFactory where
  /-- Why a call fails, if it does, given the calls before it and the id and name of the agent. -/
  refusal : List AgentCall → AgentStage → String → String → Option Fault := fun _ _ _ _ => none
  kind : AgentKind := .inert
  /-- Whether the factory tells of a call. -/
  listed : AgentCall → Bool := fun _ => true

namespace AgentFactory

/-- A factory of agents that do nothing. -/
def recording : AgentFactory := {}

/-- A factory whose agents do not connect. -/
def failing : AgentFactory where
  refusal _ stage id _ :=
    if stage = .connect then some ⟨"agent " ++ id ++ " refused to connect", []⟩ else none
  listed c := c.succeeded

/-- A factory that disposes of agents but says that it could not. -/
def failingDispose : AgentFactory where
  refusal _ stage id _ :=
    if stage = .dispose then some ⟨"agent " ++ id ++ " could not be disposed", []⟩ else none

/-- A factory whose agents fail in the stages that their names tell. -/
def flaky : AgentFactory where
  refusal _ stage _ name :=
    if stage.name ∈ Text.split '+' name then some ⟨stage.name ++ " refused", []⟩ else none
  listed c := c.succeeded || c.stage ≠ .create

/-- A factory of agents that fetch credentials; it keeps its calls to itself. -/
def usual (config : ClientConfig) (keys : Nat → Except Error KeyPair) : AgentFactory where
  kind := .usual config keys
  listed _ := false

end AgentFactory

/-- An agent in the hands of a host. -/
structure Runtime where
  id : String
  name : String
  /-- The agent itself, unless it does nothing. -/
  agent : Option Agent := none

/-- The name of the agent that was created last under an id and not disposed of since. -/
def livingName (id : String) : List AgentCall → String
  | [] => ""
  | calls => calls.foldl (fun name c =>
      if c.agentId = id then
        if c.stage = .create && c.succeeded then c.name
        else if c.stage = .dispose then "" else name
      else name) ""

end Coordination
