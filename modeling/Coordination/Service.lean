import Coordination.Authority
import Coordination.Bus.Nats
import Coordination.CommandLine.Basic
import Coordination.Host.Lifecycle
/-!
# The program at work

The program runs an authority or a host on a server until it is interrupted.  A host also ends when
it loses its connection.
-/

namespace Coordination

/-- Why the program fails. -/
inductive Failure where
  | seed (e : SeedError)
  | error (e : Error)
deriving DecidableEq, Repr

namespace Failure

/-- The texts of a failure. -/
def fault : Failure → Fault
  | seed e => ⟨e.message, [e.cause]⟩
  | error e => e.toFault

end Failure

/-- What the program runs. -/
inductive Participant where
  | authority (a : Authority) (repository : Repository) (accessToken : String)
  | host (h : Host)

namespace Participant

/-- The participant that a command asks for. -/
def create (cipher : Cipher) (newId : Nat → String) (files : String → Option String) :
    Command → Except Failure Participant
  | .authority discovery accessToken records => do
    let records ← match records with
      | some path => (Records.load newId path (files path)).mapError .seed
      | none => .ok { newId }
    let a ← (Authority.create cipher discovery).mapError .error
    return .authority a { records } accessToken
  | .host config =>
    let keys := KeyPair.generate cipher KeyPair.defaultBits
    ((Host.create config (.usual {} keys)).map .host).mapError .error

def bus : Participant → Bus
  | authority a _ _ => a.bus
  | host h => h.bus

def mapBus (f : Bus → Bus) : Participant → Participant
  | authority a r t => .authority { a with bus := f a.bus } r t
  | host h => .host { h with bus := f h.bus }

/-- Everything that arrived is handled. -/
def receive : Participant → Participant
  | authority a r t =>
    let (a, r) := a.receive r
    .authority a r t
  | host h => .host h.receive.serveAgents

end Participant

/-- The program at work. -/
structure Service where
  participant : Participant
  server : NatsServer
  web : Web
  /-- How the program ended, if it has. -/
  ended : Option (Except Failure Unit) := none

namespace Service

/-- What the server has seen of the program. -/
def frames (s : Service) : List NatsFrame := s.participant.bus.trace.map NatsFrame.ofRequest

/-- Begins to work.  An attempt that fails is repeated until the program is interrupted, which
happens when it waits after as many frames and web requests as given; so many attempts are made at
most. -/
def start (s : Service) (frames requests : Nat) : Service :=
  let web := { s.web with patience := if frames = 0 then some requests else none }
  match s.participant with
  | .authority a r token =>
    let (result, a, web) := a.connect s.server.admission token web
    { s with
      participant := .authority a r token, web
      ended := match result with
        | .ok () => none
        | .error e => some (.error (.error e)) }
  | .host h =>
    let interrupted (h : Host) (w : Web) : Bool :=
      w.cancelled || (frames ≤ h.bus.trace.length && requests ≤ w.sent.length)
    let (started, h, web) := Host.start interrupted s.server.admission
      (web.posts.length + requests + 2) h web
    { s with
      participant := .host h, web
      ended := (started.bind Host.runAfter).map (·.mapError .error) }

def deliver (s : Service) (subject : String) (raw : RawMessage) : Service :=
  if s.ended.isSome then s
  else
    let arrived := (s.participant.mapBus fun b => (b.deliverTo subject raw).settle).receive
    { s with participant := arrived.mapBus fun b => b.flush.handOver.2 }

def drop (s : Service) : Service :=
  let participant := s.participant.mapBus Bus.drop
  { s with
    participant, server := { s.server with away := true }
    ended := s.ended.or (match participant with
      | .authority _ _ _ => none
      | .host h => (h.watch false).1.map (·.mapError .error)) }

def interrupt (s : Service) : Service :=
  if s.ended.isSome then s
  else
    { s with
      participant := match s.participant with
        | .authority a r t => .authority a.disconnect r t
        | .host h => .host (h.watch true).2
      ended := some (.ok ()) }

end Service

end Coordination
