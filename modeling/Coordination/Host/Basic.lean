import Coordination.Bus.Basic
import Coordination.Discovery
import Coordination.Host.Factory
import Coordination.Registry
import Coordination.Text.Blank
import Coordination.Token
import Coordination.Watched
/-!
# Hosts and their agents

A host announces its capabilities and runs the agents that the authority assigns to it.  An agent is
live from the moment at which it has connected until it is stopped; the host tells of both.
-/

namespace Coordination

/-- How a host is set up. -/
structure HostConfig where
  discovery : DiscoveryConfig
  hostId : String
  hostSecret : String
  /-- The name; without one the id serves. -/
  hostName : Option String := none
  /-- The time between two attempts to connect. -/
  retryDelay : Duration := .ofMillis 10000
deriving DecidableEq, Repr

/-- How far a host has come. -/
inductive HostState where
  | disconnected
  | connecting
  | connected
deriving DecidableEq, Repr

namespace HostState

def name : HostState → String
  | disconnected => "disconnected"
  | connecting => "connecting"
  | connected => "connected"

end HostState

/-- What a host tells of its agents. -/
inductive HostEvent where
  | agentConnected (agentId name : String)
  | agentDisconnected (agentId : String)
deriving DecidableEq, Repr

def HostEvent.agentId : HostEvent → String
  | agentConnected id _ => id
  | agentDisconnected id => id

structure Host where
  id : String
  name : String
  secret : String
  discovery : Discovery
  bus : Bus := {}
  topics : Generator
  retryDelay : Duration
  factory : AgentFactory := {}
  registry : Registry := {}
  /-- The live agents, no two of one id, the oldest first. -/
  agents : List Runtime := []
  state : Watched HostState := ⟨.disconnected, false⟩
  /-- All that the host told of its agents, the oldest first. -/
  events : List HostEvent := []
  /-- All calls of the factory and its agents, the oldest first. -/
  calls : List AgentCall := []
  /-- Whether the inbox has a dispatch loop that was not shut down. -/
  dispatching : Bool := false

namespace Host

/-- A host that is connected to nothing. -/
def create (config : HostConfig) (factory : AgentFactory) : Except Error Host :=
  if Text.isBlank config.hostId then .error (.invalidConfig "host id is required")
  else if config.hostSecret = "" then .error (.invalidConfig "host secret is required")
  else do
    let discovery ← Discovery.create config.discovery
    return { id := config.hostId, name := config.hostName.getD config.hostId
             secret := config.hostSecret, discovery, topics := ⟨discovery.id, config.hostId⟩
             retryDelay := config.retryDelay, factory }

/-- The filter of the inbox, which is also the name of the receiving end. -/
def inbox (h : Host) : String := h.topics.subscribeAsHost

def isConnected (h : Host) : Bool := h.state.value = .connected && h.bus.connected

def snapshot (h : Host) : HostModel := { id := h.id, name := h.name, plugins := h.registry.plugins }

def agentIds (h : Host) : List String := h.agents.map Runtime.id

def agent? (h : Host) (id : String) : Option Runtime := h.agents.find? fun r => r.id == id

def removeAgent (h : Host) (id : String) : Host :=
  { h with agents := h.agents.filter fun r => r.id != id }

/-! ## Calls of the factory -/

/-- Remembers a call. -/
def log (h : Host) (stage : AgentStage) (agentId name : String) (succeeded : Bool) : Host :=
  { h with calls := h.calls ++ [{ stage, agentId, name, succeeded }] }

/-- Why the factory or an agent refuses a call, if it does. -/
def refusal? (h : Host) (stage : AgentStage) (agentId name : String) : Option Fault :=
  h.factory.refusal h.calls stage agentId name

def createdCount (h : Host) : Nat :=
  (h.calls.filter fun c => c.stage = .create && c.succeeded).length

def make (h : Host) (agent : AgentModel) : Except Fault Runtime :=
  match h.refusal? .create agent.id agent.name with
  | some fault => .error fault
  | none =>
    match h.factory.kind with
    | .inert => .ok { id := agent.id, name := agent.name }
    | .usual config keys =>
      match keys h.createdCount with
      | .error e => .error e.toFault
      | .ok pair =>
        .ok { id := agent.id, name := agent.name
              agent := some
                (Agent.create agent h.topics.authorityId h.registry.plugins pair config) }

def createRuntime (h : Host) (agent : AgentModel) : Except Fault Runtime × Host :=
  match h.make agent with
  | .error fault => (.error fault, h.log .create agent.id agent.name false)
  | .ok r => (.ok r, h.log .create agent.id agent.name true)

/-- Lets an agent begin. -/
def connectRuntime (h : Host) (r : Runtime) : Except Fault Runtime × Host :=
  match h.refusal? .connect r.id r.name with
  | some fault => (.error fault, h.log .connect r.id r.name false)
  | none =>
    match r.agent with
    | none => (.ok r, h.log .connect r.id r.name true)
    | some agent =>
      match agent.connect h.bus with
      | (.ok (), agent, bus) =>
        (.ok { r with agent }, { h with bus }.log .connect r.id r.name true)
      | (.error fault, _, bus) => (.error fault, { h with bus }.log .connect r.id r.name false)

/-- Lets an agent end.  That it fails to changes nothing for the host. -/
def disconnectRuntime (h : Host) (r : Runtime) : Host :=
  match h.refusal? .disconnect r.id r.name with
  | some _ => h.log .disconnect r.id r.name false
  | none =>
    match r.agent with
    | none => h.log .disconnect r.id r.name true
    | some agent => { h with bus := (agent.disconnect h.bus).2 }.log .disconnect r.id r.name true

/-- Hands an agent back to the factory. -/
def disposeRuntime (h : Host) (agentId : String) : Except Fault Unit × Host :=
  let name := livingName agentId h.calls
  match h.refusal? .dispose agentId name with
  | some fault => (.error fault, h.log .dispose agentId name false)
  | none => (.ok (), h.log .dispose agentId name true)

/-- Tells of an agent. -/
def tell (h : Host) (e : HostEvent) : Host := { h with events := h.events ++ [e] }

/-! ## Agents -/

/-- Makes an agent, lets it begin and keeps it.  An agent that is live already stays as it is; one
that does not begin is handed back. -/
def agentConnect (h : Host) (agent : AgentModel) : Except Error Unit × Host :=
  if (h.agent? agent.id).isSome then (.ok (), h)
  else match h.createRuntime agent with
    | (.error fault, h) => (.error (.agent fault), h)
    | (.ok r, h) =>
      -- an agent is live only after it has connected
      match h.connectRuntime r with
      | (.error fault, h) => (.error (.agent fault), (h.disposeRuntime agent.id).2)
      | (.ok r, h) =>
        (.ok (), { h with agents := h.agents ++ [r] }.tell (.agentConnected agent.id r.name))

/-- Lets an agent end and hands it back. -/
def endAgent (h : Host) (r : Runtime) : Except Fault Unit × Host :=
  let (result, h) := (h.disconnectRuntime r).disposeRuntime r.id
  (result, h.tell (.agentDisconnected r.id))

def agentDisconnect (h : Host) (agentId : String) : Except Error Unit × Host :=
  match h.agent? agentId with
  | none => (.error (.notFound ("agent " ++ agentId)), h)
  | some r =>
    let (result, h) := (h.removeAgent agentId).endAgent r
    (result.mapError .agent, h)

/-- Takes over the canonical plugins and starts the listed agents. -/
def welcome (h : Host) (plugins : List Plugin) (agents : List AgentModel) : Reconciliation × Host :=
  let (registry, outcome) := h.registry.reconcile plugins
  (outcome, agents.foldl (fun h agent => (h.agentConnect agent).2) { h with registry })

/-! ## Messages -/

/-- Handles a message.  Only the authority commands a host, and it welcomes it by its own id. -/
def handle (h : Host) (m : Message) : Host :=
  if m.senderId = some h.topics.authorityId then
    match m.decode with
    | .ok (.hostWelcome host plugins agents) =>
      if host.id = h.id then (h.welcome plugins agents).2 else h
    | .ok (.agentConnect agent) => (h.agentConnect agent).2
    | .ok (.agentDisconnect agentId) => (h.agentDisconnect agentId).2
    | _ => h
  else h

/-- Handles what waits in the inbox. -/
def receive (h : Host) : Host :=
  let h := (h.bus.inbox h.inbox).foldl handle h
  { h with bus := h.bus.emptyInbox h.inbox }

/-- An agent gets the answers that wait for it, and its calls go on. -/
def serveRuntime (b : Bus) (r : Runtime) : Runtime × Bus :=
  match r.agent with
  | none => (r, b)
  | some agent =>
    let (credentials, b) := agent.credentials.receive b
    let (credentials, b) := credentials.settle b
    ({ r with agent := some { agent with credentials } }, b)

/-- All agents get the answers that wait for them. -/
def serveAgents (h : Host) : Host :=
  let (agents, bus) := h.agents.foldl
    (fun (rs, b) r =>
      let (r, b) := serveRuntime b r
      (rs ++ [r], b)) ([], h.bus)
  { h with agents, bus }

end Host

end Coordination
