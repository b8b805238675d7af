import Coordination.Proofs.Credential.Inquiry
import Coordination.Proofs.Credential.Sealing
/-!
# Messages between a client and its authority

While a client asks its authority, at most one message is under way.  This module follows a request
and an answer from the bus of one to the other: each action moves the message one step, and the
authority answers a request exactly if there is an answer to it.
-/

namespace Coordination

/-- An authority stays up when messages travel on its bus. -/
theorem Authority.Presides.of_bus {a : Authority} {authorityId : String}
    (h : a.Presides authorityId) {b : Bus} (hconnected : b.connected = a.bus.connected)
    (hdown : b.down = a.bus.down) : Presides authorityId { a with bus := b } := by
  refine ⟨h.slash_not_mem, h.ne_empty, h.topics, ?_, hdown.trans h.down⟩
  have hup := h.connected
  unfold isConnected at hup ⊢
  rwa [← hconnected] at hup

namespace Inquiry

variable {start s : Inquiry} {name value ciphertext : String} {m : Mail} {mails : List Mail}
  {sealed : Nat}

/-! ## What a request needs -/

/-- The client can ask for a name: it has started with keys that suit the cipher of its authority,
the name can be written in a request, and there is at least one attempt. -/
structure CanAsk (s : Inquiry) (name : String) : Prop where
  started : s.Started
  suited : s.client.keys.SuitedBy s.authority.cipher
  not_blank : ¬ Text.isBlank name
  not_quoted : ¬ Json.IsQuoted name
  attempts : 1 ≤ s.client.config.attempts

/-- A credential that the client can get: what it sends is read as a request of its agent, the
credential is granted to the agent, and the value fits the key. -/
structure CanGet (s : Inquiry) (name : String) (c : Credential) : Prop where
  names : Topic.NamesAgent s.client.topics.authorityId s.client.agentId
  grants : s.repository.records.Grants s.client.agentId name c
  fits : s.client.keys.Fits c.value

/-- The value that the client is sent, and what it is sealed as at the next draw. -/
def answer? (s : Inquiry) (name : String) : Option (String × String) :=
  if Topic.NamesAgent s.client.topics.authorityId s.client.agentId then
    (s.repository.records.credential? s.client.agentId name).bind fun value =>
      match s.client.keys.jwk.encrypt s.authority.cipher s.authority.draws value.toUTF8.toList with
      | .ok ciphertext => some (value, ciphertext)
      | .error _ => none
  else none

theorem answer?_eq_some_iff :
    s.answer? name = some (value, ciphertext) ↔
      Topic.NamesAgent s.client.topics.authorityId s.client.agentId ∧
      ∃ c, s.repository.records.Grants s.client.agentId name c ∧ c.value = value ∧
        s.client.keys.jwk.encrypt s.authority.cipher s.authority.draws value.toUTF8.toList =
          .ok ciphertext := by
  unfold answer?
  rw [Option.ite_none_right_eq_some, Option.bind_eq_some_iff]
  refine and_congr_right fun _ => ⟨fun hparts => ?_, fun hparts => ?_⟩
  · obtain ⟨found, hfound, hseal⟩ := hparts
    obtain ⟨c, hgrant, rfl⟩ := Records.credential?_eq_some_iff.mp hfound
    -- sealing may fail where the value is too long, and then there is no answer
    cases hencrypt : s.client.keys.jwk.encrypt s.authority.cipher s.authority.draws
        c.value.toUTF8.toList with
    | error e =>
      rw [hencrypt] at hseal
      cases hseal
    | ok text =>
      rw [hencrypt] at hseal
      cases hseal
      exact ⟨c, hgrant, rfl, hencrypt⟩
  · obtain ⟨c, hgrant, rfl, hencrypt⟩ := hparts
    refine ⟨c.value, Records.credential?_eq_some_iff.mpr ⟨c, hgrant, rfl⟩, ?_⟩
    rw [hencrypt]

/-- There is an answer if there is a credential that the client can get. -/
theorem exists_answer? (hsuited : s.client.keys.SuitedBy s.authority.cipher) {c : Credential}
    (h : s.CanGet name c) : ∃ ciphertext, s.answer? name = some (c.value, ciphertext) := by
  obtain ⟨ciphertext, hencrypt, -⟩ :=
    KeyPair.encrypt_of_fits hsuited h.fits s.authority.draws
  exact ⟨ciphertext, answer?_eq_some_iff.mpr ⟨h.names, c, h.grants, rfl, hencrypt⟩⟩

/-- There is none if there is no such credential. -/
theorem answer?_eq_none (hsuited : s.client.keys.SuitedBy s.authority.cipher)
    (h : ∀ c, ¬ s.CanGet name c) : s.answer? name = none := by
  rw [Option.eq_none_iff_forall_ne_some]
  intro pair hsome
  obtain ⟨hnames, c, hgrant, hvalue, hencrypt⟩ := answer?_eq_some_iff.mp hsome
  rw [← hvalue] at hencrypt
  exact KeyPair.encrypt_of_not_fits hsuited (fun hfits => h c ⟨hnames, hgrant, hfits⟩) _ hencrypt

/-- The client opens an answer to it, and the answer can be written. -/
theorem CanAsk.answer (h : s.CanAsk name) (hanswer : s.answer? name = some (value, ciphertext)) :
    s.client.keys.decrypt ciphertext = .ok value ∧ ¬ Json.IsQuoted ciphertext := by
  obtain ⟨-, c, -, -, hencrypt⟩ := answer?_eq_some_iff.mp hanswer
  have hfits : s.client.keys.Fits value := by
    by_contra hnot
    exact KeyPair.encrypt_of_not_fits h.suited hnot _ hencrypt
  obtain ⟨text, hseal, hopen, hquoted⟩ :=
    KeyPair.encrypt_of_fits h.suited hfits s.authority.draws
  rw [hencrypt] at hseal
  cases hseal
  exact ⟨hopen, hquoted⟩

/-! ## Topics -/

section Topics

variable {authorityId : String}

theorem Started.senderSegment (h : start.Started) :
    start.client.topics.senderSegment = start.client.agentId :=
  if_neg h.names.ne_authority

theorem Started.topic_request (h : start.Started) (name : String) :
    (start.request name).topic =
      Topic.event start.client.agentId start.client.topics.authorityId Topic.absent
        Topic.absent := by
  unfold request Generator.publishToAuthority Generator.publishTo
  dsimp only
  rw [h.senderSegment]
  rfl

theorem topic_response (h : s.authority.Presides authorityId) (name ciphertext : String) :
    (s.response name ciphertext).topic =
      Topic.event Topic.absent authorityId Topic.absent s.client.agentId := by
  have hsender : s.authority.topics.senderSegment = Topic.absent := by
    rw [h.topics]
    exact if_pos rfl
  unfold response Generator.publishToAgent Generator.publishTo
  dsimp only
  rw [hsender, h.topics]
  rfl

theorem Started.filter_eq (h : start.Started) :
    start.client.filter = Topic.event Topic.any start.client.topics.authorityId Topic.absent
      start.client.agentId := by
  unfold CredentialClient.filter Generator.subscribeAsAgent Generator.subscribeAs
  rw [h.senderSegment]
  rfl

theorem inbox_eq (h : s.authority.Presides authorityId) :
    s.authority.inbox = Topic.event Topic.any authorityId Topic.absent Topic.absent := by
  unfold Authority.inbox
  rw [h.topics]
  rfl

/-- The client does not hear what is not addressed to it. -/
theorem Started.matches_filter_iff (h : start.Started) {sender agent : String}
    (hsender : '/' ∉ sender.toList) :
    Topic.matches start.client.filter
        (Topic.event sender start.client.topics.authorityId Topic.absent agent) = true ↔
      agent = start.client.agentId := by
  rw [h.filter_eq, Topic.matches_event_iff hsender h.authority.slash_not_mem (by decide)
    h.names.slash_not_mem (by decide) h.agent.ne_any]
  exact and_iff_right rfl

/-- The authority hears what is addressed to nobody else. -/
theorem matches_inbox_iff (h : s.authority.Presides authorityId) {sender agent : String}
    (hsender : '/' ∉ sender.toList) :
    Topic.matches s.authority.inbox (Topic.event sender authorityId Topic.absent agent) = true ↔
      agent = Topic.absent := by
  rw [inbox_eq h, Topic.matches_event_iff hsender h.slash_not_mem (by decide) (by decide)
    (by decide) (by decide)]
  exact and_iff_right rfl

theorem Started.senderOf_request (h : start.Started) (name : String) :
    Topic.senderOf (start.request name).topic = some start.client.agentId := by
  rw [h.topic_request, Topic.senderOf_event h.names.slash_not_mem h.authority.slash_not_mem
    (by decide) (by decide), if_neg h.names.ne_absent, if_neg h.agent.ne_any]
  simp only [h.authority.ne_empty, h.agent.ne_empty, false_or]
  decide

theorem Started.senderOf_response (h : start.Started) (name ciphertext : String) :
    Topic.senderOf (start.response name ciphertext).topic =
      some start.client.topics.authorityId := by
  rw [topic_response h.authority, Topic.senderOf_event (by decide) h.authority.slash_not_mem
    (by decide) h.names.slash_not_mem, if_pos rfl]
  simp only [h.authority.ne_empty, h.agent.ne_empty, or_false, false_or]
  decide

end Topics

/-! ## One message under way -/

/-- Where a message is on its way. -/
inductive Leg where
  /-- The transport of the sender has accepted it. -/
  | accepted
  /-- The broker has routed it to the receiver. -/
  | routed
  /-- It was forwarded to the receiver. -/
  | arrived
deriving DecidableEq

/-- What is in a queue when at most this message is under way. -/
def Leg.holding (here : Leg) : Option (Mail × Leg) → List Mail
  | some (m, leg) => if leg = here then [m] else []
  | none => []

/-- What is on the wire. -/
structure Load where
  /-- The request that is under way. -/
  question : Option (Mail × Leg) := none
  /-- The answer that is under way. -/
  answer : Option (Mail × Leg) := none
  /-- What the broker took so far. -/
  taken : List Mail
  /-- How many answers the authority has sealed so far. -/
  sealed : Nat

/-- This is what is on the wire between client and authority since they have started, and both are
still up. -/
structure Carries (start : Inquiry) (load : Load) (s : Inquiry) : Prop where
  topics : s.client.topics = start.client.topics
  keys : s.client.keys = start.client.keys
  config : s.client.config = start.client.config
  connected : s.bus.connected = true
  down : s.bus.down = []
  authority : s.authority.Presides start.client.topics.authorityId
  cipher : s.authority.cipher = start.authority.cipher
  draws : s.authority.draws = start.authority.draws + load.sealed
  repository : s.repository = ⟨start.repository.records, []⟩
  client_queues : s.bus.Queues s.client.filter (Leg.accepted.holding load.question)
    (Leg.routed.holding load.answer) (Leg.arrived.holding load.answer)
  authority_queues : s.authority.bus.Queues s.authority.inbox (Leg.accepted.holding load.answer)
    (Leg.routed.holding load.question) (Leg.arrived.holding load.question)
  published : start.Published s load.taken

theorem Started.carries (h : start.Started) : start.Carries ⟨none, none, [], 0⟩ start where
  topics := rfl
  keys := rfl
  config := rfl
  connected := h.connected
  down := h.down
  authority := h.authority
  cipher := rfl
  draws := rfl
  repository := by rw [← h.repository]
  client_queues := h.client_queues
  authority_queues := h.authority_queues
  published := .none start

theorem Carries.filter_eq {load : Load} (h : start.Carries load s) :
    s.client.filter = start.client.filter := by
  unfold CredentialClient.filter
  rw [h.topics]

/-- What the client does by itself does not concern the wire. -/
theorem Carries.of_client {load : Load} (h : start.Carries load s) {c : CredentialClient}
    (htopics : c.topics = s.client.topics) (hkeys : c.keys = s.client.keys)
    (hconfig : c.config = s.client.config) : start.Carries load { s with client := c } := by
  have hfilter : c.filter = s.client.filter := by
    unfold CredentialClient.filter
    rw [htopics]
  have hqueues := h.client_queues
  rw [← hfilter] at hqueues
  exact { h with
    topics := htopics.trans h.topics
    keys := hkeys.trans h.keys
    config := hconfig.trans h.config
    client_queues := hqueues }

/-- A message that was handled is not under way. -/
theorem Carries.delivered_iff {load : Load} (h : start.Carries load s) :
    s.Delivered ↔ load.question = none ∧ load.answer = none ∧ s.client.untold = [] := by
  have hempty : ∀ found : Option (Mail × Leg), Leg.accepted.holding found = [] ∧
      Leg.routed.holding found = [] ∧ Leg.arrived.holding found = [] ↔ found = none := by
    intro found
    match found with
    | none => exact ⟨fun _ => rfl, fun _ => ⟨rfl, rfl, rfl⟩⟩
    | some (m, leg) => cases leg <;> simp [Leg.holding]
  unfold Delivered
  rw [h.client_queues.accepted_eq_nil_iff, h.authority_queues.accepted_eq_nil_iff,
    h.client_queues.waiting_eq_nil_iff, h.authority_queues.waiting_eq_nil_iff, ← hempty,
    ← hempty load.answer]
  tauto

/-! ## The request on its way -/

theorem Carries.pass {load : Load} (h : start.Carries load s) (millis : Nat) :
    ∃ s', s.act (.pass millis) = some s' ∧ s'.client = s.client.pass millis ∧
      start.Carries load s' := by
  refine ⟨_, rfl, rfl, ?_⟩
  exact { h with
    authority := h.authority.of_bus rfl rfl
    client_queues := ⟨h.client_queues.accepted, h.client_queues.line⟩
    authority_queues := ⟨h.authority_queues.accepted, h.authority_queues.line⟩ }

theorem Carries.request (h : start.Carries ⟨none, none, mails, sealed⟩ s) (name : String) :
    ∃ b, s.client.request s.bus name = (.ok (), b) ∧
      start.Carries ⟨some (start.request name, .accepted), none, mails, sealed⟩
        { s with bus := b } := by
  obtain ⟨b, hpublish, hconnected, hdown, hqueues⟩ := h.client_queues.publishEvent h.connected
    h.down (start.request name).topic (start.request name).event
  refine ⟨b, ?_, { h with connected := hconnected, down := hdown, client_queues := hqueues }⟩
  unfold CredentialClient.request CredentialClient.agentId
  rw [h.topics, h.keys]
  exact hpublish

/-- The broker takes the request and routes it to the authority. -/
theorem Carries.collectClient (hstart : start.Started)
    (h : start.Carries ⟨some (start.request name, .accepted), none, mails, sealed⟩ s) :
    ∃ s', s.act .collectClient = some s' ∧ s'.client = s.client ∧
      start.Carries
        ⟨some (start.request name, .routed), none, mails ++ [start.request name], sealed⟩ s' := by
  obtain ⟨raw, rest, haccepted, hraw, hqueues⟩ := h.client_queues.dropAccepted
  -- the request is addressed to no agent, so the client does not hear it
  have hother : ¬ Topic.matches s.client.filter (start.request name).topic = true := by
    rw [h.filter_eq, hstart.topic_request, hstart.matches_filter_iff hstart.names.slash_not_mem]
    exact Ne.symm hstart.names.ne_absent
  have hheard : Topic.matches s.authority.inbox (start.request name).topic = true := by
    rw [hstart.topic_request, matches_inbox_iff h.authority hstart.names.slash_not_mem]
  refine ⟨{ s with bus := s.bus.dropAccepted }.publish raw, ?_, rfl, ?_⟩
  · unfold act
    rw [haccepted]
    rfl
  · exact { h with
      authority := h.authority.of_bus rfl rfl
      client_queues := hqueues.route_of_not_matches hraw hother
      authority_queues := h.authority_queues.route_of_matches hraw hheard
      published := h.published.publish hraw rfl }

theorem Carries.forwardAuthority
    (h : start.Carries ⟨some (m, .routed), none, mails, sealed⟩ s) :
    ∃ s', s.act .forwardAuthority = some s' ∧ s'.client = s.client ∧
      start.Carries ⟨some (m, .arrived), none, mails, sealed⟩ s' := by
  refine ⟨_, if_pos (h.authority_queues.hasPending_iff.mpr (List.cons_ne_nil m [])), rfl, ?_⟩
  exact { h with
    authority := h.authority.of_bus rfl rfl
    authority_queues := h.authority_queues.forward }

/-! ## The answer on its way -/

/-- An authority that has the request before it. -/
theorem Carries.receive (h : start.Carries ⟨some (m, .arrived), none, mails, sealed⟩ s) :
    ∃ got : Message, got.Brings m ∧
      s.act .serve = some { s with
        authority := ({ s.authority with
          bus := s.authority.bus.dropFirst s.authority.inbox }.handle s.repository got).1
        repository := ({ s.authority with
          bus := s.authority.bus.dropFirst s.authority.inbox }.handle s.repository got).2 } ∧
      start.Carries ⟨none, none, mails, sealed⟩
        (s.updateBus (Bus.dropFirst · s.authority.inbox)) := by
  obtain ⟨got, rest, hinbox, hgot, hqueues⟩ := h.authority_queues.dropFirst
  refine ⟨got, hgot, ?_, ?_⟩
  · unfold act Authority.serveFirst
    simp only [hinbox, reduceCtorEq, if_false]
  · exact { h with
      authority := h.authority.of_bus rfl rfl
      authority_queues := hqueues }

/-- What the authority reads from a request of an agent that it can name. -/
theorem CanAsk.decode_request (hask : start.CanAsk name)
    (hnames : Topic.NamesAgent start.client.topics.authorityId start.client.agentId)
    {got : Message} (hgot : got.Brings (start.request name)) :
    got.decode = .ok (start.request name).event := by
  refine hgot.decode_eq_ok ⟨hnames.not_blank, hask.not_blank⟩ fun t ht => ?_
  rcases List.mem_pair.mp ht with rfl | rfl
  · exact hnames.not_quoted
  · exact hask.not_quoted

/-- The authority answers a request to which there is an answer. -/
theorem Carries.serve_answer (hask : start.CanAsk name)
    (hanswer : start.answer? name = some (value, ciphertext))
    (h : start.Carries ⟨some (start.request name, .arrived), none, mails, 0⟩ s) :
    ∃ s', s.act .serve = some s' ∧ s'.client = s.client ∧
      start.Carries ⟨none, some (start.response name ciphertext, .accepted), mails, 1⟩ s' := by
  obtain ⟨got, hgot, hserve, hidle⟩ := h.receive
  let a : Authority := { s.authority with bus := s.authority.bus.dropFirst s.authority.inbox }
  have hup : a.Presides start.client.topics.authorityId := hidle.authority
  have hcipher : a.cipher = start.authority.cipher := hidle.cipher
  have hdraws : a.draws = start.authority.draws := hidle.draws
  -- the sender that the topic names is the agent that the request names
  have hasks : got.Asks a start.repository.records start.client.agentId name ciphertext := by
    obtain ⟨hnames, c, hgrant, rfl, hencrypt⟩ := answer?_eq_some_iff.mp hanswer
    rw [← hcipher, ← hdraws] at hencrypt
    exact ⟨_, c, hask.decode_request hnames hgot,
      hgot.senderId.trans (hask.started.senderOf_request name), hgrant, hencrypt⟩
  have htopic : a.topics.publishToAgent start.client.agentId =
      (start.response name ciphertext).topic := by
    unfold response
    rw [hup.topics, hask.started.authority.topics]
  obtain ⟨b, hpublish, hconnected, hdown, hqueues⟩ := hidle.authority_queues.publishEvent
    hup.bus_connected hup.down (start.response name ciphertext).topic
    (start.response name ciphertext).event
  have hsent : a.handle s.repository got = ({ a.afterSealing with bus := b }, s.repository) := by
    have hafter := a.afterSealing.publish_of_connected hup.bus_connected
      (start.response name ciphertext).topic (start.response name ciphertext).event
    have hpublish' : a.afterSealing.bus.publishEvent (start.response name ciphertext).topic
        (start.response name ciphertext).event = (.ok (), b) := hpublish
    unfold Authority.publish at hafter
    rw [hpublish'] at hafter
    rw [h.repository, Authority.handle_of_asks hup.bus_connected hasks, htopic]
    exact congrArg (·, _) hafter.symm
  refine ⟨{ s with authority := { a.afterSealing with bus := b } }, ?_, rfl, ?_⟩
  · rw [hserve, hsent]
  · exact { hidle with
      authority := hup.afterSealing.of_bus (hconnected.trans hup.bus_connected.symm)
        (hdown.trans hup.down.symm)
      draws := congrArg (· + 1) hdraws
      authority_queues := hqueues }

/-- The authority drops a request to which there is no answer. -/
theorem Carries.serve_nothing (hask : start.CanAsk name) (hnone : start.answer? name = none)
    (h : start.Carries ⟨some (start.request name, .arrived), none, mails, 0⟩ s) :
    ∃ s', s.act .serve = some s' ∧ s'.client = s.client ∧
      start.Carries ⟨none, none, mails, 0⟩ s' := by
  obtain ⟨got, hgot, hserve, hidle⟩ := h.receive
  let a : Authority := { s.authority with bus := s.authority.bus.dropFirst s.authority.inbox }
  have hcipher : a.cipher = start.authority.cipher := hidle.cipher
  have hdraws : a.draws = start.authority.draws := hidle.draws
  obtain ⟨timestamp, hdata⟩ := hgot.decode
  -- a request is not read as an announcement
  have hhost : ∀ reported known, ¬ got.Announces start.repository.records reported known := by
    intro reported known hparts
    obtain ⟨_, _, _, heq, -⟩ :=
      Event.eq_credentialRequest_of_decode timestamp (hdata.symm.trans hparts.1)
    cases heq
  -- if it is read as one of its sender, then what could be sealed would have been an answer
  have hagent : ∀ agentId other text,
      ¬ got.Asks a start.repository.records agentId other text := by
    intro agentId other text hparts
    obtain ⟨jwk, c, hdecode, hsender, hgrant, hencrypt⟩ := hparts
    obtain rfl : start.client.agentId = agentId := Option.some.inj
      ((hgot.senderId.trans (hask.started.senderOf_request name)).symm.trans hsender)
    obtain ⟨agentId', _, _, heq, hblank, hquoted⟩ :=
      Event.eq_credentialRequest_of_decode timestamp (hdata.symm.trans hdecode)
    cases heq
    have hnames : Topic.NamesAgent start.client.topics.authorityId start.client.agentId :=
      ⟨hask.started.names, hblank, hquoted rfl⟩
    cases (hask.decode_request hnames hgot).symm.trans hdecode
    rw [hcipher, hdraws] at hencrypt
    have hsome := answer?_eq_some_iff.mpr ⟨hnames, c, hgrant, rfl, hencrypt⟩
    rw [hnone] at hsome
    cases hsome
  have hsame : a.handle s.repository got = (a, s.repository) := by
    rw [h.repository]
    exact Authority.handle_of_neither hhost hagent
  refine ⟨s.updateBus (Bus.dropFirst · s.authority.inbox), ?_, rfl, hidle⟩
  rw [hserve, hsame]
  rfl

/-- The broker takes the answer and routes it to the client. -/
theorem Carries.collectAuthority (hstart : start.Started)
    (h : start.Carries ⟨none, some (start.response name ciphertext, .accepted), mails, sealed⟩ s) :
    ∃ s', s.act .collectAuthority = some s' ∧ s'.client = s.client ∧
      start.Carries ⟨none, some (start.response name ciphertext, .routed),
        mails ++ [start.response name ciphertext], sealed⟩ s' := by
  obtain ⟨raw, rest, haccepted, hraw, hqueues⟩ := h.authority_queues.dropAccepted
  have habsent : '/' ∉ Topic.absent.toList := by decide
  -- the answer is addressed to the agent, so the authority does not hear it
  have hheard :
      Topic.matches s.client.filter (start.response name ciphertext).topic = true := by
    rw [h.filter_eq, topic_response hstart.authority, hstart.matches_filter_iff habsent]
  have hother :
      ¬ Topic.matches s.authority.inbox (start.response name ciphertext).topic = true := by
    rw [topic_response hstart.authority, matches_inbox_iff h.authority habsent]
    exact hstart.names.ne_absent
  refine ⟨(s.updateBus Bus.dropAccepted).publish raw, ?_, rfl, ?_⟩
  · unfold act
    rw [haccepted]
    rfl
  · exact { h with
      authority := h.authority.of_bus rfl rfl
      client_queues := h.client_queues.route_of_matches hraw hheard
      authority_queues := hqueues.route_of_not_matches hraw hother
      published := h.published.publish hraw rfl }

theorem Carries.forwardClient (h : start.Carries ⟨none, some (m, .routed), mails, sealed⟩ s) :
    ∃ s', s.act .forwardClient = some s' ∧ s'.client = s.client ∧
      start.Carries ⟨none, some (m, .arrived), mails, sealed⟩ s' := by
  refine ⟨_, if_pos (h.client_queues.hasPending_iff.mpr (List.cons_ne_nil m [])), rfl, ?_⟩
  exact { h with client_queues := h.client_queues.forward }

/-- The client keeps the value that the answer brings. -/
theorem Carries.keep (hask : start.CanAsk name)
    (hanswer : start.answer? name = some (value, ciphertext))
    (h : start.Carries ⟨none, some (start.response name ciphertext, .arrived), mails, sealed⟩ s) :
    ∃ s', s.act .keep = some s' ∧ s'.client = { s.client with
        cache := CredentialClient.setKey name value s.client.cache
        untold := s.client.untold ++ [(name, value)] } ∧
      start.Carries ⟨none, none, mails, sealed⟩ s' := by
  obtain ⟨got, rest, hinbox, hgot, hqueues⟩ := h.client_queues.dropFirst
  have hsender : got.senderId = some s.client.topics.authorityId := by
    rw [hgot.senderId, hask.started.senderOf_response, h.topics]
  -- the message comes from the authority, is read, and opens under the key of the client
  have hopened : s.client.opened? got = some (name, value) := by
    obtain ⟨hopen, hquoted⟩ := hask.answer hanswer
    have hdecode : got.decode = .ok (start.response name ciphertext).event := by
      refine hgot.decode_eq_ok hask.not_blank fun t ht => ?_
      rcases List.mem_pair.mp ht with rfl | rfl
      · exact hask.not_quoted
      · exact hquoted
    unfold CredentialClient.opened?
    rw [if_pos hsender, hdecode, h.keys]
    unfold response
    dsimp only
    rw [hopen]
  have hkeep : s.client.keep got = { s.client with
      cache := CredentialClient.setKey name value s.client.cache
      untold := s.client.untold ++ [(name, value)] } := by
    unfold CredentialClient.keep
    rw [hopened]
  refine ⟨{ s with
    client := s.client.keep got, bus := s.bus.dropFirst s.client.filter }, ?_, hkeep, ?_⟩
  · unfold act
    rw [hinbox]
    rfl
  · have hidle : start.Carries ⟨none, none, mails, sealed⟩
        { s with bus := s.bus.dropFirst s.client.filter } :=
      { h with client_queues := hqueues }
    rw [hkeep]
    exact hidle.of_client rfl rfl rfl

end Inquiry

end Coordination
