import Coordination.Bus.Basic
import Coordination.Credential.PublicKey
import Coordination.Credential.Sealing
import Coordination.Discovery
import Coordination.Repository
import Coordination.Topic.Generator
import Coordination.Watched
/-!
# The authority

The authority listens on its inbox for hosts that announce themselves and for agents that ask for
credentials, answers both from the records, and tells hosts which agents to run.  Nothing that a
message says can make it fail: what cannot be handled is dropped.
-/

namespace Coordination

/-- How far an authority has come. -/
inductive AuthorityState where
  | uninitialized
  | initializing
  | initialized
  | connected
deriving DecidableEq, Repr

namespace AuthorityState

def name : AuthorityState → String
  | uninitialized => "uninitialized"
  | initializing => "initializing"
  | initialized => "initialized"
  | connected => "connected"

end AuthorityState

structure Authority where
  discovery : Discovery
  bus : Bus := {}
  topics : Generator
  state : Watched AuthorityState := ⟨.uninitialized, false⟩
  /-- The cipher with which credentials are sealed. -/
  cipher : Cipher
  /-- How many credentials were sealed. -/
  draws : Nat := 0

namespace Authority

/-- An authority that is connected to nothing. -/
def create (cipher : Cipher) (config : DiscoveryConfig) : Except Error Authority := do
  let discovery ← Discovery.create config
  return { discovery, topics := ⟨discovery.id, discovery.id⟩, cipher }

/-- The filter of the inbox, which is also the name of the receiving end. -/
def inbox (a : Authority) : String := a.topics.subscribeAsAuthority

def isConnected (a : Authority) : Bool := a.state.value = .connected && a.bus.connected

/-! ## Initialization -/

def beginSearch (a : Authority) : Authority :=
  { a with state := a.state.modify fun s =>
      if s = .uninitialized then some .initializing else none }

def endSearch (a : Authority) (found : Bool) : Authority :=
  { a with state := a.state.modify fun s =>
      if found then if s = .connected then none else some .initialized
      else if s = .initializing then some .uninitialized else none }

/-- Finds the endpoints, unless they are known. -/
def locate (a : Authority) (w : Web) : Except Error Unit × Authority × Web :=
  if a.discovery.isInitialized then (.ok (), a, w)
  else
    let a := a.beginSearch
    match a.discovery.locate w with
    | (.ok _, discovery, w) => (.ok (), { a with discovery }.endSearch true, w)
    | (.error e, discovery, w) => (.error e, { a with discovery }.endSearch false, w)

/-! ## Connection -/

/-- Connects to the broker at an address and serves the inbox, unless asked to give up: then the
inbox is served no more. -/
def serve (a : Authority) (admission : Admission) (token endpoint : String) (givenUp : Bool) :
    Except Error Unit × Authority :=
  match a.bus.connect admission token endpoint with
  | (.error e, bus) => (.error e, { a with bus })
  | (.ok (), bus) =>
    match bus.subscribe a.inbox a.inbox with
    -- the connection stays, and so does the state
    | (.error e, bus) => (.error e, { a with bus })
    | (.ok (), bus) =>
      (.ok (), { a with
        bus := if givenUp then bus.closeHandler a.inbox else bus
        state := a.state.replace .connected })

/-- Connects, unless connected.  A broker is searched for unless one is known. -/
def connect (a : Authority) (admission : Admission) (token : String) (w : Web) :
    Except Error Unit × Authority × Web :=
  if a.isConnected then (.ok (), a, w)
  else
    match a.discovery.brokerUri? with
    | some endpoint =>
      let (result, a) := a.serve admission token endpoint w.cancelled
      (result, a, w)
    | none =>
      match a.locate w with
      | (.error e, a, w) => (.error e, a, w)
      | (.ok (), a, w) =>
        match a.discovery.brokerUri? with
        | none => (.error (.connectivity "no broker uri after discovery"), a, w)
        | some endpoint =>
          let (result, a) := a.serve admission token endpoint w.cancelled
          (result, a, w)

/-- The state without a connection. -/
def restingState (a : Authority) : AuthorityState :=
  if a.discovery.isInitialized then .initialized else .uninitialized

/-- Leaves the broker, if connected. -/
def disconnect (a : Authority) : Authority :=
  if a.state.value ≠ .connected then a
  else
    { a with
      bus := ((a.bus.closeHandler a.inbox).unsubscribe a.inbox).disconnect.2
      state := a.state.replace a.restingState }

/-! ## Messages -/

def publish (a : Authority) (topic : String) (e : Event) : Except Error Unit × Authority :=
  let (result, bus) := a.bus.publishEvent topic e
  (result, { a with bus })

/-- Records what a host reports and answers with the list of its plugins and its agents.  The model
in the answer is the one on record before. -/
def hostConnected (a : Authority) (r : Repository) (reported : HostModel) :
    Except Error Unit × Authority × Repository :=
  match r.host? reported.id with
  | .error e => (.error e, a, r)
  | .ok none => (.error (.notFound ("host " ++ reported.id)), a, r)
  | .ok (some host) =>
    match r.sync host.id reported.plugins with
    | .error e => (.error e, a, r)
    | .ok (r, plugins) =>
      match r.agentsOf host.id with
      | .error e => (.error e, a, r)
      | .ok agents =>
        -- `host` is the record from before, `plugins` the list from after
        let (result, a) :=
          a.publish (a.topics.publishToHost host.id) (.hostWelcome host plugins agents)
        (result, a, r)

/-- Sends a credential to an agent, sealed to its key.  Nothing is sent if there is no such
credential. -/
def credentialRequested (a : Authority) (r : Repository) (agentId name : String) (jwk : Jwk) :
    Except Error Bool × Authority :=
  match r.credential? agentId name with
  | .error e => (.error e, a)
  | .ok none => (.ok false, a)
  | .ok (some value) =>
    match jwk.encrypt a.cipher a.draws value.toUTF8.toList with
    | .error e => (.error e, a)
    | .ok ciphertext =>
      let (result, a) := { a with draws := a.draws + 1 }.publish
        (a.topics.publishToAgent agentId) (.credentialResponse name ciphertext)
      (result.map fun _ => true, a)

/-- Handles a message.  Hosts and agents speak for themselves only. -/
def handle (a : Authority) (r : Repository) (m : Message) : Authority × Repository :=
  match m.senderId with
  | none => (a, r)
  | some sender =>
    match m.decode with
    | .ok (.hostConnect host) =>
      if host.id = sender then (a.hostConnected r host).2 else (a, r)
    | .ok (.credentialRequest agentId name jwk) =>
      if agentId = sender then ((a.credentialRequested r agentId name jwk).2, r) else (a, r)
    | _ => (a, r)

/-- Handles what waits in the inbox. -/
def receive (a : Authority) (r : Repository) : Authority × Repository :=
  let (a, r) := (a.bus.inbox a.inbox).foldl (fun (a, r) m => handle a r m) (a, r)
  ({ a with bus := a.bus.emptyInbox a.inbox }, r)

/-! ## Agents -/

/-- The host of an agent: the one on record, otherwise the one that the model names. -/
def hostFor (r : Repository) (agent : AgentModel) : Except Error String :=
  match r.hostOfAgent? agent.id with
  | .error e => .error e
  | .ok found =>
    match found.or agent.hostId with
    | some hostId => .ok hostId
    | none => .error (.notFound ("host for agent " ++ agent.id))

/-- Sends an event to the host of an agent. -/
def tellHostOf (a : Authority) (r : Repository) (agent : AgentModel) (e : Event) :
    Except Error Unit × Authority :=
  match hostFor r agent with
  | .error e => (.error e, a)
  | .ok hostId => a.publish (a.topics.publishToHost hostId) e

def sendConnect (a : Authority) (r : Repository) (agent : AgentModel) :
    Except Error Unit × Authority :=
  a.tellHostOf r agent (.agentConnect agent)

def sendDisconnect (a : Authority) (r : Repository) (agent : AgentModel) :
    Except Error Unit × Authority :=
  a.tellHostOf r agent (.agentDisconnect agent.id)

def agentCreated (a : Authority) (r : Repository) (agent : AgentModel) :
    Except Error Unit × Authority :=
  if !a.isConnected then (.error .notConnected, a)
  else if agent.isEnabled then a.sendConnect r agent
  else (.ok (), a)

/-- An agent was changed: it is stopped and, if it is enabled, run again. -/
def agentUpdated (a : Authority) (r : Repository) (agent : AgentModel) :
    Except Error Unit × Authority :=
  if !a.isConnected then (.error .notConnected, a)
  else match a.sendDisconnect r agent with
    | (.error e, a) => (.error e, a)
    | (.ok (), a) => if agent.isEnabled then a.sendConnect r agent else (.ok (), a)

def agentDeleted (a : Authority) (r : Repository) (agent : AgentModel) :
    Except Error Unit × Authority :=
  if !a.isConnected then (.error .notConnected, a) else a.sendDisconnect r agent

end Authority

end Coordination
