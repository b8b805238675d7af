import Coordination.Proofs.Authority.Dispatch
import Coordination.Proofs.Event.RoundTrip
import Coordination.Proofs.Host.Instructions
import Coordination.Proofs.Records.Roster
/-!
# What the authority tells the hosts

The record of an agent changes, and the authority is told of it; a host announces itself, and the
authority welcomes it.  This module says which instructions each host gets in either case, in which
order, and what they have to do with its roster.
-/

namespace Coordination

/-! ## Ids -/

namespace Topic

/-- An id under which a host can be reached: it stands for itself in a topic and in a filter, and
its welcome can be read. -/
structure NamesHost (authorityId id : String) : Prop extends Names authorityId id where
  ne_any : id ≠ any
  not_blank : ¬ Text.isBlank id

/-- An id under which an agent can be run and stopped: it stands for itself in a topic, and in the
text that names it.  A text that is the JSON of a text would name whatever it quotes. -/
structure NamesAgent (authorityId id : String) : Prop extends Names authorityId id where
  not_blank : ¬ Text.isBlank id
  not_quoted : ¬ Json.IsQuoted id

instance (authorityId id : String) : Decidable (NamesHost authorityId id) :=
  decidable_of_iff (Names authorityId id ∧ id ≠ any ∧ ¬ Text.isBlank id)
    ⟨fun ⟨hnames, hany, hblank⟩ => ⟨hnames, hany, hblank⟩,
     fun h => ⟨h.toNames, h.ne_any, h.not_blank⟩⟩

instance (authorityId id : String) : Decidable (NamesAgent authorityId id) :=
  decidable_of_iff (Names authorityId id ∧ ¬ Text.isBlank id ∧ ¬ Json.IsQuoted id)
    ⟨fun ⟨hnames, hblank, hquoted⟩ => ⟨hnames, hblank, hquoted⟩,
     fun h => ⟨h.toNames, h.not_blank, h.not_quoted⟩⟩

/-- An id without a quote names nothing but its agent. -/
theorem NamesAgent.of_no_quote {authorityId id : String} (hnames : Names authorityId id)
    (hblank : ¬ Text.isBlank id) (hquote : '"' ∉ id.toList) : NamesAgent authorityId id :=
  ⟨hnames, hblank, Json.not_isQuoted hquote⟩

/-- The inbox of a host takes what is addressed to the host and to no agent. -/
theorem NamesHost.matches_iff {authorityId id sender host agent : String}
    (h : NamesHost authorityId id) (hauthority : '/' ∉ authorityId.toList)
    (hsender : '/' ∉ sender.toList) :
    Topic.matches (Generator.subscribeAsHost ⟨authorityId, id⟩)
      (event sender authorityId host agent) = true ↔ host = id ∧ agent = absent := by
  rw [subscribeAsHost_of_names h.toNames]
  exact matches_event_iff hsender hauthority h.slash_not_mem (by decide) h.ne_any (by decide)

end Topic

/-! ## What a host gets -/

/-- The instructions that a host gets from messages. -/
def received (authorityId hostId : String) (raws : List RawMessage) : List Instruction :=
  ((raws.filter fun raw =>
      Topic.matches (Generator.subscribeAsHost ⟨authorityId, hostId⟩) raw.topic).map
    Message.ofRaw).map (Message.instruction authorityId hostId)

theorem received_append (authorityId hostId : String) (raws raws' : List RawMessage) :
    received authorityId hostId (raws ++ raws') =
      received authorityId hostId raws ++ received authorityId hostId raws' := by
  unfold received
  rw [List.filter_append, List.map_append, List.map_append]

/-- A message instructs a host if it reaches its inbox. -/
theorem received_singleton (authorityId hostId : String) (raw : RawMessage) :
    received authorityId hostId [raw] =
      if Topic.matches (Generator.subscribeAsHost ⟨authorityId, hostId⟩) raw.topic = true then
        [(Message.ofRaw raw).instruction authorityId hostId]
      else [] := by
  unfold received
  rw [List.filter_singleton]
  cases Topic.matches (Generator.subscribeAsHost ⟨authorityId, hostId⟩) raw.topic with
  | true => rfl
  | false => rfl

/-- A message that arrives comes from whom its topic names. -/
theorem Message.senderId_ofRaw (raw : RawMessage) :
    (ofRaw raw).senderId = Topic.senderOf raw.topic := rfl

/-- The data of an event arrive as they were sent. -/
theorem Message.data_ofRaw (topic timestamp : String) (e : Event) :
    (ofRaw (ofData topic (e.toData timestamp)).toRaw).data = some (e.toData timestamp) :=
  Json.Members.ofBytes?_toBytes (e.readable_toData timestamp)

/-- An event is read from the message that carries it as from its data. -/
theorem Message.decode_ofRaw (topic timestamp : String) (e : Event) :
    (ofRaw (ofData topic (e.toData timestamp)).toRaw).decode =
      Event.decode (e.toData timestamp) := by
  have hkind : (ofRaw (ofData topic (e.toData timestamp)).toRaw).kind = .event := rfl
  unfold decode
  rw [if_pos hkind, data_ofRaw]

namespace Authority

/-- An authority that is up, under an id that is one segment. -/
structure Presides (authorityId : String) (a : Authority) : Prop where
  slash_not_mem : '/' ∉ authorityId.toList
  ne_empty : authorityId ≠ ""
  topics : a.topics = ⟨authorityId, authorityId⟩
  connected : a.isConnected = true
  down : a.bus.down = []

/-- The authority handed messages to the transport, and did nothing else that matters. -/
structure Sends (a : Authority) (raws : List RawMessage) (a' : Authority) : Prop where
  topics : a'.topics = a.topics
  connected : a'.isConnected = a.isConnected
  down : a'.bus.down = a.bus.down
  accepted : a'.bus.accepted = a.bus.accepted ++ raws

variable {authorityId hostId : String} {a a' a'' : Authority} {raws raws' : List RawMessage}

theorem Sends.none (a : Authority) : a.Sends [] a := ⟨rfl, rfl, rfl, (List.append_nil _).symm⟩

theorem Sends.trans (hfirst : a.Sends raws a') (hsecond : a'.Sends raws' a'') :
    a.Sends (raws ++ raws') a'' where
  topics := hsecond.topics.trans hfirst.topics
  connected := hsecond.connected.trans hfirst.connected
  down := hsecond.down.trans hfirst.down
  accepted := by rw [hsecond.accepted, hfirst.accepted, List.append_assoc]

theorem Presides.sends (hp : a.Presides authorityId) (hsends : a.Sends raws a') :
    a'.Presides authorityId where
  slash_not_mem := hp.slash_not_mem
  ne_empty := hp.ne_empty
  topics := hsends.topics.trans hp.topics
  connected := hsends.connected.trans hp.connected
  down := hsends.down.trans hp.down

theorem Presides.bus_connected (hp : a.Presides authorityId) : a.bus.connected = true :=
  (Bool.and_eq_true_iff.mp hp.connected).2

theorem Presides.sends_afterSending (hp : a.Presides authorityId) (topic : String) (e : Event) :
    a.Sends [a.outgoing topic e] (a.afterSending topic e) := by
  refine ⟨rfl, rfl, rfl, ?_⟩
  unfold afterSending taken
  rw [hp.down]
  rfl

theorem Presides.publish (hp : a.Presides authorityId) (topic : String) (e : Event) :
    a.publish topic e = (.ok (), a.afterSending topic e) := by
  have hresult : (a.publish topic e).1 = .ok () := by
    unfold Authority.publish Bus.publishEvent Bus.publishAsync Bus.call
    simp only [hp.bus_connected, hp.down]
    rfl
  exact Prod.ext hresult (publish_of_connected hp.bus_connected topic e)

theorem Presides.afterSealing (hp : a.Presides authorityId) :
    a.afterSealing.Presides authorityId :=
  ⟨hp.slash_not_mem, hp.ne_empty, hp.topics, hp.connected, hp.down⟩

/-- An event to a host reaches this host, and no other. -/
theorem Presides.received_to_host (hp : a.Presides authorityId)
    (hhost : Topic.NamesHost authorityId hostId) (other : String) {e : Event}
    (he : other = hostId → e.Complete ∧ ∀ s ∈ e.textFields, ¬ Json.IsQuoted s) :
    received authorityId hostId [a.outgoing (a.topics.publishToHost other) e] =
      if other = hostId then [e.instruction hostId] else [] := by
  have htopic : a.topics.publishToHost other =
      Topic.event Topic.absent authorityId other Topic.absent := by
    rw [hp.topics]
    unfold Generator.publishToHost Generator.publishTo Generator.senderSegment
    rw [if_pos rfl]
    rfl
  have habsent : '/' ∉ Topic.absent.toList := by decide
  have hmatches : Topic.matches (Generator.subscribeAsHost ⟨authorityId, hostId⟩)
      (a.topics.publishToHost other) = true ↔ other = hostId := by
    rw [htopic, hhost.matches_iff hp.slash_not_mem habsent]
    exact and_iff_left rfl
  have hraw : (a.outgoing (a.topics.publishToHost other) e).topic =
      a.topics.publishToHost other := rfl
  rw [received_singleton, hraw]
  -- only a message that reaches the host has to be readable
  by_cases hother : other = hostId
  · obtain ⟨hcomplete, htexts⟩ := he hother
    rw [if_pos hother, if_pos (hmatches.mpr hother)]
    subst hother
    have hsender : (Message.ofRaw (a.outgoing (a.topics.publishToHost other) e)).senderId =
        some authorityId := by
      have hne : other ≠ "" := fun hempty => hhost.not_blank (hempty ▸ Text.isBlank_empty)
      rw [Message.senderId_ofRaw, hraw, htopic,
        Topic.senderOf_event habsent hp.slash_not_mem hhost.slash_not_mem habsent]
      · rfl
      · simp only [hp.ne_empty, hne, false_or]
        decide
    have hdecode : (Message.ofRaw (a.outgoing (a.topics.publishToHost other) e)).decode = .ok e :=
      (Message.decode_ofRaw _ _ e).trans
        ((Event.decode_toData_eq_ok_iff hcomplete _).mpr htexts)
    unfold Message.instruction
    rw [if_pos hsender, hdecode]
  · rw [if_neg hother, if_neg (mt hmatches.mp hother)]

theorem Presides.received_to_agent (hp : a.Presides authorityId)
    (hhost : Topic.NamesHost authorityId hostId) (other : String) (e : Event) :
    received authorityId hostId [a.outgoing (a.topics.publishToAgent other) e] = [] := by
  have htopic : a.topics.publishToAgent other =
      Topic.event Topic.absent authorityId Topic.absent other := by
    rw [hp.topics]
    unfold Generator.publishToAgent Generator.publishTo Generator.senderSegment
    rw [if_pos rfl]
    rfl
  have hnot : ¬ Topic.matches (Generator.subscribeAsHost ⟨authorityId, hostId⟩)
      (a.topics.publishToAgent other) = true := by
    rw [htopic, hhost.matches_iff hp.slash_not_mem (by decide)]
    exact fun hparts => hhost.ne_absent hparts.1.symm
  have hraw : (a.outgoing (a.topics.publishToAgent other) e).topic =
      a.topics.publishToAgent other := rfl
  rw [received_singleton, hraw, if_neg hnot]

/-! ## Instructions to the hosts -/

/-- What each host gets from what the authority has sent in between. -/
def Instructs (authorityId : String) (a a' : Authority) (sent : String → List Instruction) : Prop :=
  ∃ raws, a.Sends raws a' ∧ ∀ hostId, Topic.NamesHost authorityId hostId →
    received authorityId hostId raws = sent hostId

theorem Instructs.none (authorityId : String) (a : Authority) :
    Instructs authorityId a a fun _ => [] :=
  ⟨[], .none a, fun _ _ => rfl⟩

theorem Instructs.trans {first second : String → List Instruction}
    (hfirst : Instructs authorityId a a' first) (hsecond : Instructs authorityId a' a'' second) :
    Instructs authorityId a a'' fun hostId => first hostId ++ second hostId := by
  obtain ⟨raws, hsends, hraws⟩ := hfirst
  obtain ⟨raws', hsends', hraws'⟩ := hsecond
  refine ⟨raws ++ raws', hsends.trans hsends', fun hostId hhost => ?_⟩
  rw [received_append, hraws hostId hhost, hraws' hostId hhost]

end Authority

/-! ## Changes of the records -/

/-- What the management of the agents does: it changes the records, and then has the authority tell
the hosts. -/
inductive Change where
  /-- An agent is put on record, and the authority is told that it was created. -/
  | create (agent : AgentModel)
  /-- An agent is put on record, and the authority is told that it was changed. -/
  | update (agent : AgentModel)
  /-- An agent is put on record, and the authority is told that it was deleted. -/
  | retire (agent : AgentModel)
  /-- An agent is taken off the records, and the authority is told that it was deleted. -/
  | remove (agent : AgentModel)

namespace Change

/-- The agent as the authority is told of it. -/
def agent : Change → AgentModel
  | create agent | update agent | retire agent | remove agent => agent

def record (r : Records) : Change → Records
  | create agent | update agent | retire agent => r.addAgent agent
  | remove agent => r.removeAgent agent.id

def tell (a : Authority) (w : Repository) : Change → Authority
  | create agent => (a.agentCreated w agent).2
  | update agent => (a.agentUpdated w agent).2
  | retire agent | remove agent => (a.agentDeleted w agent).2

/-- What a host is to do once it hears of the change. -/
def instructions (c : Change) (hostId : String) : List Instruction :=
  match c with
  | create agent =>
    if agent.isEnabled = true ∧ agent.hostId = some hostId then [.start agent.id] else []
  | update agent =>
    if agent.hostId = some hostId then
      .stop agent.id :: if agent.isEnabled then [.start agent.id] else []
    else []
  | retire agent | remove agent => if agent.hostId = some hostId then [.stop agent.id] else []

/-- Whether the records are as after the change, as far as its agent goes. -/
def Recorded (r : Records) : Change → Prop
  | create agent | update agent | retire agent => r.agent? agent.id = some agent
  | remove agent => r.agent? agent.id = none

variable {r r' : Records} {c : Change}

theorem recorded_record (r : Records) (c : Change) : c.Recorded (c.record r) := by
  cases c with
  | remove agent => exact r.agent?_removeAgent_self agent.id
  | _ agent => exact r.agent?_addAgent_self agent

theorem Recorded.congr (hc : c.Recorded r) (hagents : r'.agents = r.agents) : c.Recorded r' := by
  have hsame : ∀ id, r'.agent? id = r.agent? id := by
    intro id
    unfold Records.agent?
    rw [hagents]
  cases c with
  | remove agent => exact (hsame agent.id).trans hc
  | _ agent => exact (hsame agent.id).trans hc

/-- The host on record is the one that the change names, if there is one. -/
theorem Recorded.hostOfAgent? (hc : c.Recorded r) :
    r.hostOfAgent? c.agent.id = none ∨ r.hostOfAgent? c.agent.id = c.agent.hostId := by
  unfold Records.hostOfAgent?
  cases c with
  | remove m =>
    have hnone : r.agent? m.id = none := hc
    exact .inl (congrArg (fun found => found.bind AgentModel.hostId) hnone)
  | _ m =>
    have hsome : r.agent? m.id = some m := hc
    exact .inr (congrArg (fun found => found.bind AgentModel.hostId) hsome)

end Change

/-- Records with one entry for each agent, under ids that can be told to a host. -/
structure Records.Tellable (authorityId : String) (r : Records) : Prop where
  nodup : (AgentModel.ids r.agents).Nodup
  names : ∀ m ∈ r.agents, Topic.NamesAgent authorityId m.id

/-- A change under such an id keeps them so. -/
theorem Records.Tellable.record {authorityId : String} {r : Records} (hr : r.Tellable authorityId)
    {c : Change} (hc : Topic.NamesAgent authorityId c.agent.id) :
    (c.record r).Tellable authorityId := by
  have hput : ∀ m : AgentModel, Topic.NamesAgent authorityId m.id →
      (r.addAgent m).Tellable authorityId := by
    intro m hm
    refine ⟨nodup_putAgent hr.nodup m, fun x hx => ?_⟩
    rcases (mem_putAgent hr.nodup).mp hx with rfl | ⟨hold, -⟩
    · exact hm
    · exact hr.names x hold
  cases c with
  | remove agent =>
    refine ⟨?_, fun x hx => hr.names x (List.mem_of_mem_filter hx)⟩
    unfold AgentModel.ids
    exact hr.nodup.sublist (List.filter_sublist.map _)
  | _ agent => exact hput agent hc

namespace Authority

variable {authorityId : String} {a : Authority} {r : Records}

/-- The host of an agent is told, and no other. -/
theorem Presides.tellHostOf (hp : a.Presides authorityId) {m : AgentModel}
    (hrecord : r.hostOfAgent? m.id = none ∨ r.hostOfAgent? m.id = m.hostId) {e : Event}
    (hcomplete : e.Complete) (htexts : ∀ s ∈ e.textFields, ¬ Json.IsQuoted s) :
    ((a.tellHostOf ⟨r, []⟩ m e).1 = .ok () ∨ m.hostId = none) ∧
    Instructs authorityId a (a.tellHostOf ⟨r, []⟩ m e).2
      fun hostId => if m.hostId = some hostId then [e.instruction hostId] else [] := by
  have hfound : (r.hostOfAgent? m.id).or m.hostId = m.hostId := by
    rcases hrecord with hnone | hsame
    · rw [hnone]
      rfl
    · rw [hsame, Option.or_self]
  have hup : Repository.hostOfAgent? ⟨r, []⟩ m.id = .ok (r.hostOfAgent? m.id) :=
    Repository.ask_of_up r _ _
  unfold Authority.tellHostOf hostFor
  rw [hup]
  dsimp only
  rw [hfound]
  cases hhost : m.hostId with
  | none => exact ⟨.inr rfl, .none authorityId a⟩
  | some other =>
    dsimp only
    rw [hp.publish]
    refine ⟨.inl rfl, _, hp.sends_afterSending _ e, fun hostId hnames => ?_⟩
    rw [hp.received_to_host hnames other fun _ => ⟨hcomplete, htexts⟩]
    simp only [Option.some.injEq]

/-- The host of an agent is told to stop it. -/
theorem Presides.sendDisconnect (hp : a.Presides authorityId) {m : AgentModel}
    (hm : Topic.NamesAgent authorityId m.id)
    (hrecord : r.hostOfAgent? m.id = none ∨ r.hostOfAgent? m.id = m.hostId) :
    ((a.sendDisconnect ⟨r, []⟩ m).1 = .ok () ∨ m.hostId = none) ∧
    Instructs authorityId a (a.sendDisconnect ⟨r, []⟩ m).2
      fun hostId => if m.hostId = some hostId then [.stop m.id] else [] := by
  refine hp.tellHostOf (e := .agentDisconnect m.id) hrecord hm.not_blank fun s hs => ?_
  rw [List.mem_singleton.mp hs]
  exact hm.not_quoted

/-- The host of an agent is told to run it. -/
theorem Presides.sendConnect (hp : a.Presides authorityId) {m : AgentModel}
    (hm : Topic.NamesAgent authorityId m.id)
    (hrecord : r.hostOfAgent? m.id = none ∨ r.hostOfAgent? m.id = m.hostId) :
    ((a.sendConnect ⟨r, []⟩ m).1 = .ok () ∨ m.hostId = none) ∧
    Instructs authorityId a (a.sendConnect ⟨r, []⟩ m).2
      fun hostId => if m.hostId = some hostId then [.start m.id] else [] :=
  hp.tellHostOf (e := .agentConnect m) hrecord hm.not_blank fun _ hs => nomatch hs

/-- Of a new agent its host is told, if it is enabled. -/
theorem Presides.agentCreated (hp : a.Presides authorityId) {m : AgentModel}
    (hm : Topic.NamesAgent authorityId m.id)
    (hrecord : r.hostOfAgent? m.id = none ∨ r.hostOfAgent? m.id = m.hostId) :
    Instructs authorityId a (a.agentCreated ⟨r, []⟩ m).2
      fun hostId => if m.isEnabled = true ∧ m.hostId = some hostId then [.start m.id] else [] := by
  unfold Authority.agentCreated
  rw [hp.connected]
  by_cases henabled : m.isEnabled = true
  · simp only [henabled, true_and]
    exact (hp.sendConnect hm hrecord).2
  · simp only [henabled]
    exact .none authorityId a

/-- Of a changed agent its host is told to stop it, and to run it again if it is enabled. -/
theorem Presides.agentUpdated (hp : a.Presides authorityId) {m : AgentModel}
    (hm : Topic.NamesAgent authorityId m.id)
    (hrecord : r.hostOfAgent? m.id = none ∨ r.hostOfAgent? m.id = m.hostId) :
    Instructs authorityId a (a.agentUpdated ⟨r, []⟩ m).2 fun hostId =>
      if m.hostId = some hostId then
        .stop m.id :: if m.isEnabled then [.start m.id] else []
      else [] := by
  have hboth : (fun hostId => if m.hostId = some hostId then
        Instruction.stop m.id :: if m.isEnabled then [.start m.id] else []
      else []) =
      fun hostId => (if m.hostId = some hostId then [Instruction.stop m.id] else []) ++
        if m.isEnabled = true ∧ m.hostId = some hostId then [.start m.id] else [] := by
    funext hostId
    by_cases hon : m.hostId = some hostId
    · simp [hon]
    · simp [hon]
  obtain ⟨hresult, hstop⟩ := hp.sendDisconnect hm hrecord
  have hp' : (a.sendDisconnect ⟨r, []⟩ m).2.Presides authorityId := by
    obtain ⟨_, hsends, -⟩ := hstop
    exact hp.sends hsends
  have hstart := (hp'.sendConnect hm hrecord).2
  unfold Authority.agentUpdated
  rw [hp.connected, hboth]
  rcases hsent : a.sendDisconnect ⟨r, []⟩ m with ⟨result, a'⟩
  rw [hsent] at hresult hstop hstart
  cases result with
  | ok _ =>
    by_cases henabled : m.isEnabled = true
    · simp only [henabled, true_and]
      exact hstop.trans hstart
    · simp only [henabled]
      exact hstop.trans (.none authorityId a')
  | error e =>
    -- without a host nobody is told anything
    have hnone : m.hostId = none := hresult.resolve_left fun hok => nomatch hok
    simp only [hnone] at hstop ⊢
    simpa using hstop

/-- Of a deleted agent its host is told to stop it. -/
theorem Presides.agentDeleted (hp : a.Presides authorityId) {m : AgentModel}
    (hm : Topic.NamesAgent authorityId m.id)
    (hrecord : r.hostOfAgent? m.id = none ∨ r.hostOfAgent? m.id = m.hostId) :
    Instructs authorityId a (a.agentDeleted ⟨r, []⟩ m).2
      fun hostId => if m.hostId = some hostId then [.stop m.id] else [] := by
  unfold Authority.agentDeleted
  rw [hp.connected]
  exact (hp.sendDisconnect hm hrecord).2

/-- **What the hosts are told of a change.** -/
theorem Presides.tell (hp : a.Presides authorityId) {c : Change}
    (hc : Topic.NamesAgent authorityId c.agent.id) (hrecorded : c.Recorded r) :
    Instructs authorityId a (c.tell a ⟨r, []⟩) c.instructions := by
  have hhost := hrecorded.hostOfAgent?
  cases c with
  | create m => exact hp.agentCreated hc hhost
  | update m => exact hp.agentUpdated hc hhost
  | _ m => exact hp.agentDeleted hc hhost

/-- A host that is welcomed is told its roster, and the others nothing. -/
theorem Presides.welcomes (hp : a.Presides authorityId) {a' : Authority} {r' : Records}
    {reported known : HostModel} (hknown : known.id = reported.id)
    (hwelcomes : a.Welcomes r reported known a' r') :
    ∃ ids : List String, (∀ id, id ∈ ids ↔ id ∈ roster r.agents reported.id) ∧
      Instructs authorityId a a' fun hostId =>
        if reported.id = hostId then [.welcome ids] else [] := by
  obtain ⟨agents, hperm, -, rfl⟩ := hwelcomes.sent
  refine ⟨AgentModel.ids agents, fun id => Records.mem_ids_of_perm hperm, _,
    hp.sends_afterSending _ _, fun hostId hnames => ?_⟩
  rw [hp.received_to_host hnames]
  · dsimp only
    by_cases hid : reported.id = hostId
    · rw [if_pos hid, if_pos hid, Event.instruction, if_pos (hknown.trans hid)]
      rfl
    · rw [if_neg hid, if_neg hid]
  · intro hid
    refine ⟨?_, fun _ hs => absurd hs List.not_mem_nil⟩
    show ¬ Text.isBlank known.id
    rw [hknown, hid]
    exact hnames.not_blank

/-- **What the hosts are told in answer to a message**: nothing, but that a host that announces
itself is welcomed with its roster. -/
theorem Presides.handle (hp : a.Presides authorityId) (r : Records) (m : Message) :
    ∃ a' r' sent, a.handle ⟨r, []⟩ m = (a', ⟨r', []⟩) ∧ r'.agents = r.agents ∧
      Instructs authorityId a a' sent ∧ ∀ hostId, sent hostId = [] ∨
        ∃ ids, sent hostId = [.welcome ids] ∧ ∀ id, id ∈ ids ↔ id ∈ roster r.agents hostId := by
  by_cases hhost : ∃ reported known, m.Announces r reported known
  · obtain ⟨reported, known, hm⟩ := hhost
    obtain ⟨a', r', hhandle, hwelcomes⟩ := handle_of_announces hp.bus_connected hm
    have hknown : known.id = reported.id := by
      obtain ⟨e, hentry, rfl⟩ := Option.map_eq_some_iff.mp hm.2.2
      exact Records.id_of_entry? hentry
    obtain ⟨ids, hids, hsent⟩ := hp.welcomes hknown hwelcomes
    refine ⟨a', r', _, hhandle, hwelcomes.frame.agents, hsent, fun hostId => ?_⟩
    by_cases hid : reported.id = hostId
    · subst hid
      exact .inr ⟨ids, if_pos rfl, hids⟩
    · exact .inl (if_neg hid)
  · by_cases hagent : ∃ agentId name ciphertext, m.Asks a r agentId name ciphertext
    · obtain ⟨agentId, name, ciphertext, hm⟩ := hagent
      -- the draw that was used up does not matter to anyone
      have hp' : a.afterSealing.Presides authorityId := hp.afterSealing
      obtain ⟨htopics, hconnected, hdown, haccepted⟩ := hp'.sends_afterSending
        (a.topics.publishToAgent agentId) (.credentialResponse name ciphertext)
      refine ⟨_, r, fun _ => [], handle_of_asks hp.bus_connected hm, rfl,
        ⟨_, ⟨htopics, hconnected, hdown, haccepted⟩, ?_⟩, fun _ => .inl rfl⟩
      exact fun hostId hnames => hp'.received_to_agent hnames agentId _
    · have hneither := handle_of_neither (a := a)
        (fun reported known hm => hhost ⟨reported, known, hm⟩)
        (fun agentId name ciphertext hm => hagent ⟨agentId, name, ciphertext, hm⟩)
      exact ⟨a, r, fun _ => [], hneither, rfl, .none authorityId a, fun _ => .inl rfl⟩

end Authority

end Coordination
