import Coordination.Proofs.Bus.Line
import Coordination.Proofs.Host.Listening
import Mathlib.Data.Set.Insert
/-!
# Instructions

What a message does to the set of live agents of a host: a welcome adds the agents that it lists,
the instruction to run an agent adds it, the instruction to stop one takes it out, and any other
message does nothing.  A host whose factory never fails follows its instructions to the letter.
-/

namespace Coordination

/-- What a message means for the live agents of a host. -/
inductive Instruction where
  /-- These agents run, beside those that do. -/
  | welcome (ids : List String)
  /-- An agent runs. -/
  | start (id : String)
  /-- An agent does not run. -/
  | stop (id : String)
  /-- Nothing changes. -/
  | idle
deriving DecidableEq, Repr

namespace Instruction

def apply : Instruction → Set String → Set String
  | welcome ids, live => live ∪ {id | id ∈ ids}
  | start id, live => insert id live
  | stop id, live => live \ {id}
  | idle, live => live

/-- The agents that an instruction has run. -/
def started : Instruction → List String
  | welcome ids => ids
  | start id => [id]
  | _ => []

def applyAll (is : List Instruction) (live : Set String) : Set String :=
  is.foldl (fun live i => i.apply live) live

theorem applyAll_append (is js : List Instruction) (live : Set String) :
    applyAll (is ++ js) live = applyAll js (applyAll is live) :=
  List.foldl_append

theorem apply_mono (i : Instruction) {live live' : Set String} (h : live ⊆ live') :
    i.apply live ⊆ i.apply live' := by
  cases i with
  | welcome ids => exact Set.union_subset_union_left _ h
  | start id => exact Set.insert_subset_insert h
  | stop id => exact Set.sdiff_subset_sdiff_left h
  | idle => exact h

/-- The more agents were live before, the more are live after. -/
theorem applyAll_mono (is : List Instruction) {live live' : Set String} (h : live ⊆ live') :
    applyAll is live ⊆ applyAll is live' := by
  induction is generalizing live live' with
  | nil => exact h
  | cons i is ih => exact ih (i.apply_mono h)

theorem apply_union (i : Instruction) (live live' : Set String) :
    i.apply (live ∪ live') = i.apply live ∪ i.apply live' := by
  cases i with
  | welcome ids => exact Set.union_union_distrib_right _ _ _
  | start id => exact Set.insert_union_distrib id live live'
  | stop id => exact Set.union_sdiff_distrib
  | idle => rfl

/-- Each agent fares by itself. -/
theorem applyAll_union (is : List Instruction) (live live' : Set String) :
    applyAll is (live ∪ live') = applyAll is live ∪ applyAll is live' := by
  induction is generalizing live live' with
  | nil => rfl
  | cons i is ih =>
    show applyAll is (i.apply (live ∪ live')) = _
    rw [apply_union, ih]
    rfl

end Instruction

/-- What an event means for the live agents of a host. -/
def Event.instruction (hostId : String) : Event → Instruction
  | hostWelcome host _ agents =>
    if host.id = hostId then .welcome (agents.map AgentModel.id) else .idle
  | agentConnect agent => .start agent.id
  | agentDisconnect agentId => .stop agentId
  | _ => .idle

/-- What a message means for the live agents of a host: only the authority instructs. -/
def Message.instruction (authorityId hostId : String) (m : Message) : Instruction :=
  if m.senderId = some authorityId then
    match m.decode with
    | .ok e => e.instruction hostId
    | .error _ => .idle
  else .idle

namespace Runtime

variable {r : Runtime} {authorityId x : String} {b : Bus}

theorem enterBus_frame (r : Runtime) (authorityId : String) (b : Bus) :
    (r.enterBus authorityId b).connected = b.connected ∧
      (r.enterBus authorityId b).down = b.down ∧
      (r.enterBus authorityId b).accepted = b.accepted := by
  unfold enterBus
  split <;> exact ⟨rfl, rfl, rfl⟩

theorem leaveBus_frame (r : Runtime) (authorityId : String) (b : Bus) :
    (r.leaveBus authorityId b).connected = b.connected ∧
      (r.leaveBus authorityId b).down = b.down ∧
      (r.leaveBus authorityId b).accepted = b.accepted := by
  unfold leaveBus
  split <;> exact ⟨rfl, rfl, rfl⟩

/-- An agent that begins joins its own line only. -/
theorem line_enterBus (hx : x ≠ agentFilter authorityId r.id) :
    (r.enterBus authorityId b).line x = b.line x := by
  unfold enterBus
  cases r.agent with
  | none => rfl
  | some a =>
    dsimp only
    rw [Bus.line_subscribed, if_neg (Ne.symm hx), List.append_nil]

/-- An agent that ends leaves lines with another filter alone. -/
theorem line_leaveBus (hx : x ≠ agentFilter authorityId r.id)
    (hline : ∀ s ∈ b.line x, s.filter = x) : (r.leaveBus authorityId b).line x = b.line x := by
  unfold leaveBus
  cases r.agent with
  | none => rfl
  | some a =>
    have hclosed : (b.closeHandler (agentFilter authorityId r.id)).line x = b.line x := by
      unfold Bus.closeHandler
      rw [Bus.line_mapHandler (f := Subscription.deafen) (fun _ => rfl), if_neg (Ne.symm hx)]
    dsimp only
    unfold Bus.unsubscribe
    rw [Bus.line_mapSubscriptions_of_not (f := Subscription.cancel) (fun _ => rfl), hclosed]
    intro s hs
    rw [hclosed] at hs
    rw [hline s hs, Bool.and_eq_false_iff, beq_eq_false_iff_ne]
    exact .inr hx

end Runtime

namespace Host

def live (h : Host) : Set String := {id | id ∈ h.agentIds}

/-- A host that follows its instructions: its id stands for itself, its factory never fails, its bus
works, only its inbox and its live agents have filters in the table, and at most one subscription
leads to its inbox. -/
structure Obedient (authorityId : String) (h : Host) : Prop where
  topics : h.topics = ⟨authorityId, h.id⟩
  names : Topic.Names authorityId h.id
  factory : h.factory.NeverFails
  connected : h.bus.connected = true
  down : h.bus.down = []
  nodup : h.agentIds.Nodup
  listens : ∀ r ∈ h.agents, r.ListensOn authorityId
  filters : ∀ f ∈ h.bus.filters,
    f = h.inbox ∨ ∃ r ∈ h.agents, r.agent ≠ none ∧ f = agentFilter authorityId r.id
  line : h.bus.line h.inbox = [] ∨ h.bus.Attends h.inbox

section Obeying

variable {authorityId : String} {h h' : Host}

/-- No agent listens on the inbox of the host. -/
theorem Obedient.inbox_ne (ho : h.Obedient authorityId) (id : String) :
    h.inbox ≠ agentFilter authorityId id := by
  unfold inbox
  rw [ho.topics]
  exact host_ne_agentFilter ho.names id

/-- What leads to the inbox takes what is meant for the inbox. -/
theorem Obedient.filter_of_mem_line (ho : h.Obedient authorityId) :
    ∀ s ∈ h.bus.line h.inbox, s.filter = h.inbox := by
  intro s hs
  rcases ho.line with hnil | ⟨t, hline, ht⟩
  · rw [hnil] at hs
    cases hs
  · rw [hline, List.mem_singleton] at hs
    rw [hs]
    exact ht.filter

/-- A change of the bus that adds nothing to the table but the inbox keeps a host obedient. -/
theorem Obedient.of_bus (ho : h.Obedient authorityId) {bus : Bus}
    (hconnected : bus.connected = true) (hdown : bus.down = [])
    (hfilters : ∀ f ∈ bus.filters, f = h.inbox ∨ f ∈ h.bus.filters)
    (hline : bus.line h.inbox = [] ∨ bus.Attends h.inbox) :
    Obedient authorityId { h with bus := bus } where
  topics := ho.topics
  names := ho.names
  factory := ho.factory
  connected := hconnected
  down := hdown
  nodup := ho.nodup
  listens := ho.listens
  filters f hf := by
    rcases hfilters f hf with heq | hold
    · exact .inl heq
    · exact ho.filters f hold
  line := hline

/-- A host after it followed an instruction: it is still obedient, and only its live agents are not
what they were. -/
structure Follows (authorityId : String) (h h' : Host) : Prop where
  obedient : h'.Obedient authorityId
  id : h'.id = h.id
  topics : h'.topics = h.topics
  line : h'.bus.line h.inbox = h.bus.line h.inbox
  accepted : h'.bus.accepted = h.bus.accepted

theorem Follows.refl (ho : h.Obedient authorityId) : h.Follows authorityId h :=
  ⟨ho, rfl, rfl, rfl, rfl⟩

theorem Follows.trans {h'' : Host} (hfirst : h.Follows authorityId h')
    (hsecond : h'.Follows authorityId h'') : h.Follows authorityId h'' where
  obedient := hsecond.obedient
  id := hsecond.id.trans hfirst.id
  topics := hsecond.topics.trans hfirst.topics
  line := by
    have hline := hsecond.line
    unfold inbox at hline ⊢
    rw [hfirst.topics] at hline
    exact hline.trans hfirst.line
  accepted := hsecond.accepted.trans hfirst.accepted

/-- What a host with the same setup needs to be obedient and to have followed. -/
theorem Obedient.follows (ho : h.Obedient authorityId) (hsteady : h.Steady h')
    (hconnected : h'.bus.connected = h.bus.connected) (hdown : h'.bus.down = h.bus.down)
    (haccepted : h'.bus.accepted = h.bus.accepted) (hnodup : h'.agentIds.Nodup)
    (hlistens : ∀ r ∈ h'.agents, r.ListensOn authorityId)
    (hfilters : ∀ f ∈ h'.bus.filters,
      f = h.inbox ∨ ∃ r ∈ h'.agents, r.agent ≠ none ∧ f = agentFilter authorityId r.id)
    (hline : h'.bus.line h.inbox = h.bus.line h.inbox) : h.Follows authorityId h' := by
  have hinbox : h'.inbox = h.inbox := by
    unfold inbox
    rw [hsteady.topics]
  -- all that is said of the host itself is kept, since it is the same host
  refine ⟨⟨?_, ?_, ?_, ?_, ?_, hnodup, hlistens, ?_, ?_⟩, hsteady.id, hsteady.topics, hline,
    haccepted⟩
  · rw [hsteady.topics, hsteady.id]
    exact ho.topics
  · rw [hsteady.id]
    exact ho.names
  · rw [hsteady.factory]
    exact ho.factory
  · rw [hconnected]
    exact ho.connected
  · rw [hdown]
    exact ho.down
  · rw [hinbox]
    exact hfilters
  · unfold Bus.Attends
    rw [hinbox, hline]
    exact ho.line

/-- Running an agent, however it ends. -/
theorem Obedient.runs (ho : h.Obedient authorityId) {agent : AgentModel}
    {result : Except Error Unit} (hruns : h.Runs agent result h') :
    h.Follows authorityId h' ∧ (result = .ok () → h'.live = insert agent.id h.live) := by
  cases hruns with
  | live hlive =>
    have hmem : agent.id ∈ h.live := hlive
    exact ⟨.refl ho, fun _ => (Set.insert_eq_of_mem hmem).symm⟩
  | refused _ hsteady hagents hbus =>
    refine ⟨ho.follows hsteady ?_ ?_ ?_ ?_ ?_ ?_ ?_, fun hok => nomatch hok⟩
    · rw [hbus]
    · rw [hbus]
    · rw [hbus]
    · unfold agentIds
      rw [hagents]
      exact ho.nodup
    · rw [hagents]
      exact ho.listens
    · rw [hbus, hagents]
      exact ho.filters
    · rw [hbus]
  -- the agent is the last one now, and joined the bus under its own filter
  | @began r _ hnew hsteady hid hlistens _ _ hagents hbus =>
    have hauthority : h.topics.authorityId = authorityId := by rw [ho.topics]
    rw [hauthority] at hlistens hbus
    have hids : h'.agentIds = h.agentIds ++ [agent.id] := by rw [agentIds_append hagents, hid]
    obtain ⟨hconnected, hdown, haccepted⟩ := r.enterBus_frame authorityId h.bus
    rw [← hbus] at hconnected hdown haccepted
    refine ⟨ho.follows hsteady hconnected hdown haccepted ?_ ?_ ?_ ?_, fun _ => ?_⟩
    · rw [hids]
      exact List.nodup_append.mpr ⟨ho.nodup, List.nodup_singleton _, fun id hold id' hlast heq =>
        hnew (List.mem_singleton.mp hlast ▸ heq ▸ hold)⟩
    · intro r' hr'
      rw [hagents, List.mem_append, List.mem_singleton] at hr'
      rcases hr' with hold | rfl
      · exact ho.listens r' hold
      · exact hlistens
    · -- the table names one filter more at most, and its agent is the last one
      intro f hf
      rw [hbus, Runtime.mem_filters_enterBus] at hf
      rw [hagents]
      rcases hf with hold | ⟨hsome, heq⟩
      · rcases ho.filters f hold with hinbox | ⟨r', hr', hparts⟩
        · exact .inl hinbox
        · exact .inr ⟨r', List.mem_append_left _ hr', hparts⟩
      · exact .inr ⟨r, List.mem_append_right _ (List.mem_singleton_self r), hsome, heq⟩
    · rw [hbus, Runtime.line_enterBus (ho.inbox_ne r.id)]
    · ext id
      show id ∈ h'.agentIds ↔ id = agent.id ∨ id ∈ h.agentIds
      rw [hids, List.mem_append, List.mem_singleton]
      exact or_comm

theorem Obedient.agentConnect (ho : h.Obedient authorityId) {agent : AgentModel}
    (hid : Topic.Names authorityId agent.id) :
    h.Follows authorityId (h.agentConnect agent).2 ∧
      (h.agentConnect agent).2.live = insert agent.id h.live := by
  have hruns := h.runs_agentConnect agent
  obtain ⟨hfollows, hlive⟩ := ho.runs hruns
  refine ⟨hfollows, hlive ?_⟩
  by_cases hmem : agent.id ∈ h.agentIds
  · generalize (h.agentConnect agent).1 = result at hruns
    generalize (h.agentConnect agent).2 = h' at hruns
    cases hruns with
    | live _ => rfl
    | refused hnew _ _ _ => exact absurd hmem hnew
    | began hnew _ _ _ _ _ _ _ => exact absurd hmem hnew
  · refine agentConnect_ok ho.factory ho.connected ho.down fun _ => ?_
    -- the topic is free, for only the inbox and the live agents have theirs in the table
    rw [show h.topics.authorityId = authorityId by rw [ho.topics]]
    intro htaken
    rcases ho.filters _ htaken with hinbox | ⟨r, hr, -, hother⟩
    · exact ho.inbox_ne agent.id hinbox.symm
    · have hne : r.id ≠ agent.id := fun heq => hmem (heq ▸ List.mem_map_of_mem hr)
      exact agentFilter_ne hid hne hother.symm

theorem Obedient.agentDisconnect (ho : h.Obedient authorityId) (id : String) :
    h.Follows authorityId (h.agentDisconnect id).2 ∧
      (h.agentDisconnect id).2.live = h.live \ {id} := by
  have hends := h.ends_agentDisconnect id
  generalize (h.agentDisconnect id).2 = h' at hends
  cases hends with
  | unknown hnone =>
    have hnot : id ∉ h.live := hnone
    exact ⟨.refl ho, (Set.sdiff_singleton_eq_self hnot).symm⟩
  | @ended r _ hr hid hsteady hagents hbus =>
    subst hid
    have hauthority : h.topics.authorityId = authorityId := by rw [ho.topics]
    rw [hauthority] at hbus
    have hleft := hbus ho.factory.willing (ho.listens r hr)
    -- what the bus has besides the filter of the agent is as before
    obtain ⟨hconnected, hdown, haccepted⟩ := r.leaveBus_frame authorityId h.bus
    rw [← hleft] at hconnected hdown haccepted
    refine ⟨ho.follows hsteady hconnected hdown haccepted ?_ ?_ ?_ ?_, ?_⟩
    · unfold agentIds
      rw [hagents]
      exact ho.nodup.sublist (List.filter_sublist.map Runtime.id)
    · intro r' hr'
      rw [hagents] at hr'
      exact ho.listens r' (List.mem_of_mem_filter hr')
    · intro f hf
      rw [hleft, Runtime.mem_filters_leaveBus] at hf
      rw [hagents]
      rcases ho.filters f hf.1 with hinbox | ⟨r', hr', hsome, heq⟩
      · exact .inl hinbox
      · -- an agent that does something and has the id is the one that ended
        have hne : r'.id ≠ r.id := by
          intro hsame
          have hr'r : r' = r := List.inj_on_of_nodup_map ho.nodup hr' hr hsame
          subst hr'r
          exact hf.2 hsome heq
        exact .inr ⟨r', List.mem_filter.mpr ⟨hr', bne_iff_ne.mpr hne⟩, hsome, heq⟩
    · rw [hleft, Runtime.line_leaveBus (ho.inbox_ne r.id) ho.filter_of_mem_line]
    · ext id
      exact mem_agentIds_filter hagents

/-- A welcome has all listed agents run. -/
theorem Obedient.welcome (ho : h.Obedient authorityId) (plugins : List Plugin)
    {agents : List AgentModel} (hagents : ∀ a ∈ agents, Topic.Names authorityId a.id) :
    h.Follows authorityId (h.welcome plugins agents).2 ∧
      (h.welcome plugins agents).2.live = h.live ∪ {id | id ∈ agents.map AgentModel.id} := by
  -- the listed agents are run one after another, by induction on the list
  have hfold : ∀ (agents : List AgentModel) (h : Host), h.Obedient authorityId →
      (∀ a ∈ agents, Topic.Names authorityId a.id) →
      h.Follows authorityId (agents.foldl (fun h agent => (h.agentConnect agent).2) h) ∧
        (agents.foldl (fun h agent => (h.agentConnect agent).2) h).live =
          h.live ∪ {id | id ∈ agents.map AgentModel.id} := by
    intro agents
    induction agents with
    | nil =>
      intro h ho _
      exact ⟨.refl ho, by simp⟩
    | cons agent agents ih =>
      intro h ho hall
      obtain ⟨hfirst, hlive₁⟩ := ho.agentConnect (hall agent List.mem_cons_self)
      obtain ⟨hrest, hlive₂⟩ :=
        ih _ hfirst.obedient fun a ha => hall a (List.mem_cons_of_mem agent ha)
      refine ⟨hfirst.trans hrest, hlive₂.trans ?_⟩
      rw [hlive₁]
      ext id
      simp only [List.map_cons, List.mem_cons, Set.mem_union, Set.mem_insert_iff, Set.mem_ofPred_eq]
      tauto
  let h₀ : Host := { h with registry := (h.registry.reconcile plugins).1 }
  have ho₀ : h₀.Obedient authorityId :=
    ⟨ho.topics, ho.names, ho.factory, ho.connected, ho.down, ho.nodup, ho.listens, ho.filters,
      ho.line⟩
  obtain ⟨hfollows, hlive⟩ := hfold agents h₀ ho₀ hagents
  exact ⟨⟨hfollows.obedient, hfollows.id, hfollows.topics, hfollows.line, hfollows.accepted⟩,
    hlive⟩

/-- **A message does to the live agents what it instructs.** -/
theorem Obedient.handle (ho : h.Obedient authorityId) {m : Message}
    (hstarted : ∀ id ∈ (m.instruction authorityId h.id).started, Topic.Names authorityId id) :
    h.Follows authorityId (h.handle m) ∧
      (h.handle m).live = (m.instruction authorityId h.id).apply h.live := by
  have hauthority : h.topics.authorityId = authorityId := by rw [ho.topics]
  unfold Message.instruction at hstarted ⊢
  unfold Host.handle
  rw [hauthority]
  -- only the authority instructs, and only with the three events for this host
  by_cases hsender : m.senderId = some authorityId
  · rw [if_pos hsender] at hstarted ⊢
    rw [if_pos hsender]
    cases hdecode : m.decode with
    | error e => exact ⟨.refl ho, rfl⟩
    | ok e =>
      rw [hdecode] at hstarted
      cases e with
      | hostWelcome host plugins agents =>
        by_cases hid : host.id = h.id
        · simp only [Event.instruction, if_pos hid] at hstarted ⊢
          refine ho.welcome plugins fun a ha => hstarted a.id (List.mem_map_of_mem ha)
        · simp only [Event.instruction, if_neg hid]
          exact ⟨.refl ho, rfl⟩
      | agentConnect agent => exact ho.agentConnect (hstarted agent.id (List.mem_singleton_self _))
      | agentDisconnect agentId => exact ho.agentDisconnect agentId
      | _ => exact ⟨.refl ho, rfl⟩
  · rw [if_neg hsender, if_neg hsender]
    exact ⟨.refl ho, rfl⟩

end Obeying

end Host

end Coordination
