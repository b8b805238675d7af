import Coordination.Proofs.Authority.Changes
import Coordination.Proofs.Bus.Queues
import Coordination.Proofs.Credential.Calls
import Coordination.Proofs.Topic.Routing
import Coordination.Proofs.World.Actions
/-!
# A client and its authority

A client and an authority with a bus each, on one broker.  A call of the client takes a step, a
message goes a step on its way, or one of the two handles a message that has arrived; between any
two such actions anything else may happen, and time may pass.  A run is timely if no call runs out
of time before every message was delivered and handled.
-/

namespace Coordination

/-! ## Starting -/

namespace Bus

variable {b b' : Bus} {x : String}

/-- A bus that a handler is to use: nothing leads to the handler yet, nothing is under way, and the
transport works. -/
structure Unused (b : Bus) (x : String) : Prop where
  line : b.line x = []
  accepted : b.accepted = []
  down : b.down = []

/-- Entering the broker leaves the bus as it was, apart from the connection. -/
theorem Unused.connect (h : b.Unused x) {admission : Admission} {token endpoint : String}
    (hconnect : b.connect admission token endpoint = (.ok (), b')) : b'.Unused x := by
  unfold Bus.connect at hconnect
  split at hconnect
  · cases hconnect
    exact h
  · split at hconnect
    · cases hconnect
    · split at hconnect
      · cases hconnect
      · cases hconnect
        exact ⟨h.line, h.accepted, h.down⟩

/-- A handler that has just subscribed is on a bus that works. -/
theorem Unused.subscribe (h : b.Unused x) (hsubscribe : b.subscribe x x = (.ok (), b')) :
    b'.connected = true ∧ b'.down = [] ∧ b'.Queues x [] [] [] := by
  rcases b.subscribe_cases x x with ⟨e, hfailed⟩ | ⟨hconnected, -, hdone⟩
  · cases hfailed.symm.trans hsubscribe
  · cases hdone.symm.trans hsubscribe
    exact ⟨hconnected, h.down, queues_subscribed h.line h.accepted⟩

end Bus

theorem CredentialClient.start_of_unused {c c' : CredentialClient} {b b' : Bus}
    (hlistening : c.listening = false) (hunused : b.Unused c.filter)
    (hstart : c.start b = (.ok (), c', b')) :
    c' = { c with listening := true } ∧ b'.connected = true ∧ b'.down = [] ∧
      b'.Queues c.filter [] [] [] := by
  unfold start at hstart
  rw [hlistening, if_neg Bool.false_ne_true] at hstart
  rcases hsubscribe : b.subscribe c.filter c.filter with ⟨result, bus⟩
  rw [hsubscribe] at hstart
  cases result with
  | error e => cases hstart
  | ok _ =>
    cases hstart
    exact ⟨rfl, hunused.subscribe hsubscribe⟩

theorem Authority.serve_of_unused {a a' : Authority} {authorityId : String}
    (hslash : '/' ∉ authorityId.toList) (hempty : authorityId ≠ "")
    (htopics : a.topics = ⟨authorityId, authorityId⟩) (hunused : a.bus.Unused a.inbox)
    {admission : Admission} {token endpoint : String}
    (hserve : a.serve admission token endpoint false = (.ok (), a')) :
    a'.Presides authorityId ∧ a'.bus.Queues a'.inbox [] [] [] := by
  unfold serve at hserve
  rcases hconnect : a.bus.connect admission token endpoint with ⟨result, bus⟩
  rw [hconnect] at hserve
  cases result with
  | error e => cases hserve
  | ok _ =>
    rcases hsubscribe : bus.subscribe a.inbox a.inbox with ⟨result, bus'⟩
    simp only [hsubscribe] at hserve
    cases result with
    | error e => cases hserve
    | ok _ =>
      cases hserve
      obtain ⟨hconnected, hdown, hqueues⟩ := (hunused.connect hconnect).subscribe hsubscribe
      exact ⟨⟨hslash, hempty, htopics, hconnected, hdown⟩, hqueues⟩

/-- A client and an authority with its records, each with a bus on the broker. -/
structure Inquiry where
  client : CredentialClient
  /-- The bus of the client. -/
  bus : Bus
  authority : Authority
  repository : Repository
  broker : Broker := {}

namespace Inquiry

/-! ## Actions -/

inductive Action where
  /-- A call of the client takes a step. -/
  | call (id : Nat)
  /-- The broker takes a message of the client. -/
  | collectClient
  /-- The broker takes a message of the authority. -/
  | collectAuthority
  /-- The task of the client forwards a message. -/
  | forwardClient
  /-- The task of the authority forwards a message. -/
  | forwardAuthority
  /-- The authority handles a message. -/
  | serve
  /-- The client keeps what a message brings. -/
  | keep
  /-- The client tells its calls what it has kept. -/
  | tell
  /-- Time passes. -/
  | pass (millis : Nat)

/-- Whether the action is more than time that passes. -/
def Action.isStep : Action → Bool
  | pass _ => false
  | _ => true

def steps (actions : List Action) : Nat := actions.countP Action.isStep

def updateBus (s : Inquiry) (f : Bus → Bus) : Inquiry :=
  { s with authority := { s.authority with bus := f s.authority.bus } }

/-- The broker keeps a message and hands it to both buses. -/
def publish (s : Inquiry) (raw : RawMessage) : Inquiry :=
  { s with broker := s.broker.record [raw], bus := s.bus.route raw }.updateBus (Bus.route · raw)

def act (s : Inquiry) : Action → Option Inquiry
  | .call id =>
    ((s.client.call? id).bind (s.client.step s.bus)).map fun p =>
      { s with client := p.1, bus := p.2 }
  | .collectClient =>
    s.bus.accepted.head?.map fun raw => { s with bus := s.bus.dropAccepted }.publish raw
  | .collectAuthority =>
    s.authority.bus.accepted.head?.map fun raw => (s.updateBus Bus.dropAccepted).publish raw
  | .forwardClient =>
    if s.bus.hasPending s.client.filter then
      some { s with bus := s.bus.forward s.client.filter }
    else none
  | .forwardAuthority =>
    if s.authority.bus.hasPending s.authority.inbox then
      some (s.updateBus (Bus.forward · s.authority.inbox))
    else none
  | .serve =>
    if s.authority.bus.inbox s.authority.inbox = [] then none
    else
      let (authority, repository) := s.authority.serveFirst s.repository
      some { s with authority, repository }
  | .keep =>
    (s.bus.inbox s.client.filter).head?.map fun m =>
      { s with client := s.client.keep m, bus := s.bus.dropFirst s.client.filter }
  | .tell => if s.client.untold = [] then none else some { s with client := s.client.tell }
  | .pass millis =>
    some ({ s with
      client := s.client.pass millis
      bus := { s.bus with now := s.bus.now + millis } }.updateBus
        fun b => { b with now := b.now + millis })

/-! ## Runs -/

/-- Every message that was published has been delivered and handled. -/
def Delivered (s : Inquiry) : Prop :=
  s.bus.accepted = [] ∧ s.authority.bus.accepted = [] ∧ s.bus.waiting s.client.filter = [] ∧
    s.authority.bus.waiting s.authority.inbox = [] ∧ s.client.untold = []

/-- A call runs out of time only after every message was delivered and handled. -/
def Timely (s : Inquiry) : Action → Prop
  | .call id => ∀ k attempt, s.client.call? id = some k → k.stage = .wait attempt none →
      k.deadline ≤ s.client.now → s.Delivered
  | _ => True

inductive Run : Inquiry → List Action → Inquiry → Prop where
  | nil (s : Inquiry) : Run s [] s
  | cons {s s' s'' : Inquiry} {action : Action} {actions : List Action} (timely : s.Timely action)
      (result : s.act action = some s') (rest : Run s' actions s'') : Run s (action :: actions) s''

theorem Run.append {s s' s'' : Inquiry} {actions more : List Action} (h : Run s actions s')
    (hmore : Run s' more s'') : Run s (actions ++ more) s'' := by
  induction h with
  | nil s => exact hmore
  | cons timely result rest ih => exact .cons timely result (ih hmore)

def ask (s : Inquiry) (name : String) : Inquiry := { s with client := s.client.ask name }

def result? (s : Inquiry) (id : Nat) : Option (Except Error String) :=
  (s.client.call? id).bind Call.result?

/-! ## What is asked and answered -/

def request (s : Inquiry) (name : String) : Mail :=
  ⟨s.client.topics.publishToAuthority, .credentialRequest s.client.agentId name s.client.keys.jwk⟩

def response (s : Inquiry) (name ciphertext : String) : Mail :=
  ⟨s.authority.topics.publishToAgent s.client.agentId, .credentialResponse name ciphertext⟩

/-- Client and authority have started under two plain ids: each listens on its topic, nothing is
under way, and the client knows no value and has no call in progress. -/
structure Started (s : Inquiry) : Prop where
  agent : Topic.IsPlain s.client.agentId
  distinct : s.client.agentId ≠ s.client.topics.authorityId
  authority : s.authority.Presides s.client.topics.authorityId
  repository : s.repository.down = []
  connected : s.bus.connected = true
  down : s.bus.down = []
  client_queues : s.bus.Queues s.client.filter [] [] []
  authority_queues : s.authority.bus.Queues s.authority.inbox [] [] []
  cache : s.client.cache = []
  untold : s.client.untold = []
  calls : ∀ k ∈ s.client.calls, k.isDone = true ∧ k.id < s.client.made

/-- A client without calls and an authority that have just started, each on a bus of its own, have
started. -/
theorem started_of_start {client client' : CredentialClient} {bus bus' : Bus}
    {authority authority' : Authority}
    (hagent : Topic.IsPlain client.agentId)
    (hdistinct : client.agentId ≠ client.topics.authorityId)
    (hslash : '/' ∉ client.topics.authorityId.toList) (hempty : client.topics.authorityId ≠ "")
    (htopics : authority.topics = ⟨client.topics.authorityId, client.topics.authorityId⟩)
    (hlistening : client.listening = false) (hcache : client.cache = [])
    (huntold : client.untold = []) (hcalls : client.calls = [])
    (hclient : bus.Unused client.filter) (hauthority : authority.bus.Unused authority.inbox)
    (hstart : client.start bus = (.ok (), client', bus')) {admission : Admission}
    {token endpoint : String}
    (hserve : authority.serve admission token endpoint false = (.ok (), authority'))
    (records : Records) (broker : Broker) :
    Started ⟨client', bus', authority', ⟨records, []⟩, broker⟩ := by
  obtain ⟨rfl, hconnected, hdown, hqueues⟩ :=
    CredentialClient.start_of_unused hlistening hclient hstart
  obtain ⟨hpresides, hqueues'⟩ :=
    Authority.serve_of_unused hslash hempty htopics hauthority hserve
  refine ⟨hagent, hdistinct, hpresides, rfl, hconnected, hdown, hqueues, hqueues', hcache, huntold, ?_⟩
  intro k hk
  have hnone : k ∈ client.calls := hk
  rw [hcalls] at hnone
  cases hnone

/-- What the broker took between two states brings these events. -/
def Published (s s' : Inquiry) (mails : List Mail) : Prop :=
  ∃ raws, s'.broker.history = s.broker.history ++ raws ∧ List.Forall₂ RawMessage.Brings raws mails

variable {s s' s'' : Inquiry} {mails : List Mail} {m : Mail} {raw : RawMessage}

theorem Started.names (h : s.Started) :
    Topic.Names s.client.topics.authorityId s.client.agentId :=
  ⟨h.agent.slash_not_mem, h.agent.ne_absent, h.distinct⟩

theorem Published.none (s : Inquiry) : s.Published s [] := ⟨[], (List.append_nil _).symm, .nil⟩

/-- One more message was taken. -/
theorem Published.publish (h : s.Published s' mails) (hraw : raw.Brings m)
    (hbroker : s''.broker = s'.broker) : s.Published (s''.publish raw) (mails ++ [m]) := by
  obtain ⟨raws, hhistory, hbrings⟩ := h
  refine ⟨raws ++ [raw], ?_, List.rel_append hbrings (.cons hraw .nil)⟩
  show s''.broker.history ++ [raw] = _
  rw [hbroker, hhistory, List.append_assoc]

end Inquiry

end Coordination
