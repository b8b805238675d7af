import Coordination.Authority
import Coordination.Bus.Network
import Coordination.Host.Lifecycle
/-!
# An authority and its hosts on one broker

All participants of one installation: the broker, the records, at most one authority, hosts by label
and the web.  A world settles in rounds: the broker takes what was published, routes it, and
everyone handles what arrived.
-/

namespace Coordination

/-- All participants of one installation. -/
structure World where
  broker : Broker := {}
  repository : Repository
  authority : Option Authority := none
  /-- The hosts, no two of one label. -/
  hosts : List (String × Host) := []
  web : Web := {}

namespace World

def host? (w : World) (label : String) : Option Host := w.hosts.lookup label

def putHost (label : String) (h : Host) : List (String × Host) → List (String × Host)
  | [] => [(label, h)]
  | (l, other) :: rest =>
    if l = label then (label, h) :: rest else (l, other) :: putHost label h rest

def setHost (w : World) (label : String) (h : Host) : World :=
  { w with hosts := putHost label h w.hosts }

def mapHosts (w : World) (f : Host → Host) : World :=
  { w with hosts := w.hosts.map fun (l, h) => (l, f h) }

def mapBuses (w : World) (f : Bus → Bus) : World :=
  let w := w.mapHosts fun h => { h with bus := f h.bus }
  { w with authority := w.authority.map fun a => { a with bus := f a.bus } }

/-- All buses, that of the authority first. -/
def buses (w : World) : List Bus :=
  (w.authority.map Authority.bus).toList ++ w.hosts.map fun (_, h) => h.bus

def publish (w : World) (raws : List RawMessage) : World :=
  { w with broker := w.broker.record raws }.mapBuses fun b => b.routeAll raws

/-- The broker takes what the participants published. -/
def collect (w : World) : World :=
  let flushed := w.mapBuses Bus.flush
  (flushed.mapBuses fun b => b.handOver.2).publish (flushed.buses.flatMap fun b => b.handOver.1)

def serveAuthority (w : World) : World :=
  match w.authority with
  | none => w
  | some a =>
    let (a, repository) := a.receive w.repository
    { w with authority := some a, repository }

/-- One round: what was published arrives and is handled. -/
def round (w : World) : World :=
  ((w.collect.mapBuses Bus.settle).serveAuthority.mapHosts Host.receive).mapHosts Host.serveAgents

def rounds : Nat → World → World
  | 0, w => w
  | n + 1, w => rounds n w.round

/-- Everything happens that needs no time.  A request is answered once and an answer is not, so few
rounds are enough: one to publish, one to ask, one to answer and one to receive the answer. -/
def settle (w : World) : World := rounds 5 w

/-! ## Runs of hosts -/

/-- The host of a label goes on with its run for some rounds.  Before each of them something happens
to the world, and the web may ask to give up.  None if the run goes on even then. -/
def stay (label : String) : List (World → World) → World → Option (Except Error Unit) × World
  | [], w => (none, w)
  | change :: changes, w =>
    let w := change w
    match w.host? label with
    | none => (none, w)
    | some h =>
      match h.watch w.web.cancelled with
      | (some result, h) => (some result, w.setHost label h)
      | (none, _) => stay label changes w

/-- The host of a label starts, within a number of attempts, and stays up from then on.  None if the
run goes on even after so many attempts, or after so many changes. -/
def run (label : String) (tries : Nat) (changes : List (World → World)) (w : World) :
    Option (Except Error Unit) × World :=
  match w.host? label with
  | none => (none, w)
  | some h =>
    let (started, h, web) :=
      Host.start (fun _ => Web.givesUp) w.broker.admission tries h w.web
    let w := { w.setHost label h with web }
    match started.map Host.runAfter with
    | none => (none, w)
    | some none => w.stay label changes
    | some ended => (ended, w)

/-! ## Credentials of agents -/

def client? (w : World) (label agentId : String) : Option CredentialClient :=
  (((w.host? label).bind fun h => h.agent? agentId).bind Runtime.agent).map Agent.credentials

def mapClient (f : CredentialClient → CredentialClient) (r : Runtime) : Runtime :=
  { r with agent := r.agent.map fun a => { a with credentials := f a.credentials } }

def updateClient (w : World) (label agentId : String) (f : CredentialClient → CredentialClient) :
    World :=
  match w.host? label with
  | none => w
  | some h => w.setHost label
      { h with agents := h.agents.map fun r => if r.id = agentId then mapClient f r else r }

/-- Lets an agent wait for as long as one attempt takes, a number of times. -/
def waitOut (label agentId : String) (timeout : Nat) : Nat → World → World
  | 0, w => w
  | n + 1, w =>
    waitOut label agentId timeout n (w.updateClient label agentId fun c => c.pass timeout).settle

/-- A live agent of a host fetches a credential; none if there is no such agent. -/
def credential (w : World) (label agentId name : String) :
    Option (Except Error String) × World :=
  match w.client? label agentId with
  | none => (none, w)
  | some c =>
    let asked := (w.updateClient label agentId fun c => c.ask name).settle
    let call (w : World) : Option Call := (w.client? label agentId).bind fun d => d.call? c.made
    let waits := match call asked with
      | some k => if k.isDone then 0 else c.config.attempts
      | none => 0
    let ended := waitOut label agentId c.config.timeout waits asked
    (some (((call ended).bind Call.result?).getD (.error (CredentialClient.unanswered name))),
      ended.updateClient label agentId fun d => d.abandon c.made)

end World

end Coordination
