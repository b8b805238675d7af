import Coordination.Proofs.Bus.Table
import Coordination.Proofs.Host.Account
/-!
# What a host does for an agent

Running an agent ends in one of three ways: the agent was live already, it is refused and nothing is
left of it, or it is live from now on.  Stopping one ends in one of two ways: there was no such
agent, or it is live no more.  The relations `Runs` and `Ends` say all that happens to the host in
each of these cases, and what each does to the bus.
-/

namespace Coordination

/-! ## Factories -/

namespace AgentFactory

/-- A factory that refuses no call. -/
def Willing (f : AgentFactory) : Prop := ∀ calls stage id name, f.refusal calls stage id name = none

/-- A factory that never fails: it refuses no call, and it always has a key pair for an agent that
needs one. -/
structure NeverFails (f : AgentFactory) : Prop where
  willing : f.Willing
  keys : ∀ config keys, f.kind = .usual config keys → ∀ n, ∃ pair, keys n = .ok pair

/-- A factory of agents that fetch credentials refuses no call. -/
theorem willing_usual (config : ClientConfig) (keys : Nat → Except Error KeyPair) :
    (usual config keys).Willing := fun _ _ _ _ => rfl

end AgentFactory

/-! ## Agents on the bus -/

/-- The filter on which an agent listens under an authority. -/
def agentFilter (authorityId id : String) : String :=
  Generator.subscribeAsAgent ⟨authorityId, id⟩

namespace Runtime

/-- An agent that does nothing, or one that listens on a filter. -/
def ListensOn (r : Runtime) (authorityId : String) : Prop :=
  ∀ a, r.agent = some a →
    a.credentials.topics = ⟨authorityId, r.id⟩ ∧ a.credentials.listening = true

/-- An agent that does nothing, or one that is to listen on its filter and does not yet. -/
def AwaitsOn (r : Runtime) (authorityId : String) : Prop :=
  ∀ a, r.agent = some a →
    a.credentials.topics = ⟨authorityId, r.id⟩ ∧ a.credentials.listening = false

/-- The bus after an agent began on it. -/
def enterBus (r : Runtime) (authorityId : String) (b : Bus) : Bus :=
  match r.agent with
  | none => b
  | some _ => b.subscribed (agentFilter authorityId r.id) (agentFilter authorityId r.id)

/-- The bus after an agent ended on it. -/
def leaveBus (r : Runtime) (authorityId : String) (b : Bus) : Bus :=
  match r.agent with
  | none => b
  | some _ =>
    (b.closeHandler (agentFilter authorityId r.id)).unsubscribe (agentFilter authorityId r.id)

/-- An agent that begins and does something adds its filter to the table. -/
theorem mem_filters_enterBus {r : Runtime} {authorityId : String} {b : Bus} {filter : String} :
    filter ∈ (r.enterBus authorityId b).filters ↔
      filter ∈ b.filters ∨ r.agent ≠ none ∧ filter = agentFilter authorityId r.id := by
  unfold enterBus
  cases r.agent with
  | none => simp
  | some a => simp [Bus.filters_subscribed]

/-- An agent that ends and did something takes its filter out. -/
theorem mem_filters_leaveBus {r : Runtime} {authorityId : String} {b : Bus} {filter : String} :
    filter ∈ (r.leaveBus authorityId b).filters ↔
      filter ∈ b.filters ∧ (r.agent ≠ none → filter ≠ agentFilter authorityId r.id) := by
  unfold leaveBus
  cases r.agent with
  | none => simp
  | some a => simp [Bus.filters_unsubscribe, Bus.filters_closeHandler]

end Runtime

namespace Host

/-! ## What agents do not concern -/

/-- Two states of one host with the same connection. -/
structure Steady (h h' : Host) : Prop where
  id : h'.id = h.id
  topics : h'.topics = h.topics
  factory : h'.factory = h.factory
  state : h'.state = h.state
  dispatching : h'.dispatching = h.dispatching

theorem Steady.refl (h : Host) : h.Steady h := ⟨rfl, rfl, rfl, rfl, rfl⟩

theorem Steady.trans {h h' h'' : Host} (hfirst : h.Steady h') (hsecond : h'.Steady h'') :
    h.Steady h'' where
  id := hsecond.id.trans hfirst.id
  topics := hsecond.topics.trans hfirst.topics
  factory := hsecond.factory.trans hfirst.factory
  state := hsecond.state.trans hfirst.state
  dispatching := hsecond.dispatching.trans hfirst.dispatching

theorem steady_disconnectRuntime (h : Host) (r : Runtime) : h.Steady (h.disconnectRuntime r) := by
  unfold disconnectRuntime
  split
  · exact ⟨rfl, rfl, rfl, rfl, rfl⟩
  · split <;> exact ⟨rfl, rfl, rfl, rfl, rfl⟩

theorem steady_disposeRuntime (h : Host) (id : String) : h.Steady (h.disposeRuntime id).2 := by
  simp only [disposeRuntime]
  split <;> exact ⟨rfl, rfl, rfl, rfl, rfl⟩

theorem bus_disposeRuntime (h : Host) (id : String) : (h.disposeRuntime id).2.bus = h.bus := by
  simp only [disposeRuntime]
  split <;> rfl

theorem steady_endAgent (h : Host) (r : Runtime) : h.Steady (h.endAgent r).2 :=
  ((h.steady_disconnectRuntime r).trans (steady_disposeRuntime _ r.id)).trans
    ⟨rfl, rfl, rfl, rfl, rfl⟩

/-! ## Live agents -/

theorem agentIds_append {h h' : Host} {r : Runtime} (hagents : h'.agents = h.agents ++ [r]) :
    h'.agentIds = h.agentIds ++ [r.id] := by
  unfold agentIds
  rw [hagents, List.map_append, List.map_singleton]

theorem mem_agentIds_filter {h h' : Host} {id other : String}
    (hagents : h'.agents = h.agents.filter fun r => r.id != id) :
    other ∈ h'.agentIds ↔ other ∈ h.agentIds ∧ other ≠ id := by
  have hids : h'.agentIds = h.agentIds.filter fun other => other != id := by
    unfold agentIds
    rw [hagents, List.filter_map]
    rfl
  rw [hids, List.mem_filter, bne_iff_ne]

/-! ## Running an agent -/

/-- How running an agent ends. -/
inductive Runs (h : Host) (agent : AgentModel) : Except Error Unit → Host → Prop where
  /-- The agent was live already. -/
  | live : agent.id ∈ h.agentIds → Runs h agent (.ok ()) h
  /-- The agent is not made, or does not begin. -/
  | refused {e : Error} {h' : Host} : agent.id ∉ h.agentIds → h.Steady h' →
      h'.agents = h.agents → h'.bus = h.bus → Runs h agent (.error e) h'
  /-- The agent is live from now on. -/
  | began {r : Runtime} {h' : Host} : agent.id ∉ h.agentIds → h.Steady h' → r.id = agent.id →
      r.ListensOn h.topics.authorityId → (r.agent = none → h.factory.kind = .inert) →
      (r.agent ≠ none → agentFilter h.topics.authorityId agent.id ∉ h.bus.filters) →
      h'.agents = h.agents ++ [r] → h'.bus = r.enterBus h.topics.authorityId h.bus →
      Runs h agent (.ok ()) h'

/-- What the factory makes does not listen yet, and never will if the factory makes agents that do
nothing. -/
theorem make_eq_ok {h : Host} {agent : AgentModel} {r : Runtime} (hmake : h.make agent = .ok r) :
    r.id = agent.id ∧ (r.agent = none ↔ h.factory.kind = .inert) ∧
      r.AwaitsOn h.topics.authorityId := by
  unfold make at hmake
  -- by the kind of the factory: an inert one makes runtimes without an agent
  split at hmake
  · cases hmake
  · split at hmake
    · next hkind =>
      cases hmake
      exact ⟨rfl, iff_of_true rfl hkind, fun a ha => nomatch ha⟩
    · next config keys hkind =>
      split at hmake
      · cases hmake
      · cases hmake
        refine ⟨rfl, ?_, fun a ha => ?_⟩
        · rw [hkind]
          exact iff_of_false (Option.some_ne_none _) fun hinert => nomatch hinert
        · cases ha
          exact ⟨rfl, rfl⟩

/-- Having an agent made touches neither the live agents nor the bus. -/
theorem createRuntime_frame (h : Host) (agent : AgentModel) :
    (h.createRuntime agent).1 = h.make agent ∧ h.Steady (h.createRuntime agent).2 ∧
      (h.createRuntime agent).2.agents = h.agents ∧ (h.createRuntime agent).2.bus = h.bus := by
  unfold createRuntime
  cases h.make agent with
  | error fault => exact ⟨rfl, ⟨rfl, rfl, rfl, rfl, rfl⟩, rfl, rfl⟩
  | ok r => exact ⟨rfl, ⟨rfl, rfl, rfl, rfl, rfl⟩, rfl, rfl⟩

/-- How it ends when an agent is to begin. -/
inductive Begins (h : Host) (authorityId : String) (r : Runtime) :
    Except Fault Runtime → Host → Prop where
  /-- The agent does not begin. -/
  | refused {fault : Fault} {h' : Host} : h.Steady h' → h'.agents = h.agents → h'.bus = h.bus →
      Begins h authorityId r (.error fault) h'
  /-- The agent does nothing, or it listens. -/
  | begun {r' : Runtime} {h' : Host} : h.Steady h' → h'.agents = h.agents → r'.id = r.id →
      (r'.agent = none ↔ r.agent = none) → r'.ListensOn authorityId →
      (r'.agent ≠ none → agentFilter authorityId r.id ∉ h.bus.filters) →
      h'.bus = r'.enterBus authorityId h.bus → Begins h authorityId r (.ok r') h'

theorem begins_connectRuntime (h : Host) {authorityId : String} {r : Runtime}
    (hr : r.AwaitsOn authorityId) :
    h.Begins authorityId r (h.connectRuntime r).1 (h.connectRuntime r).2 := by
  unfold connectRuntime
  split
  · exact .refused ⟨rfl, rfl, rfl, rfl, rfl⟩ rfl rfl
  · cases hagent : r.agent with
    | none =>
      refine .begun ⟨rfl, rfl, rfl, rfl, rfl⟩ rfl rfl Iff.rfl (fun a ha => ?_)
        (fun hsome => absurd hagent hsome) ?_
      · rw [hagent] at ha
        cases ha
      · unfold Runtime.enterBus
        rw [hagent]
        rfl
    | some a =>
      obtain ⟨htopics, hlistening⟩ := hr a hagent
      have hfilter : a.credentials.filter = agentFilter authorityId r.id := by
        unfold CredentialClient.filter agentFilter
        rw [htopics]
      -- the client of the agent subscribes, and nothing else can fail
      rcases h.bus.subscribe_cases (agentFilter authorityId r.id) (agentFilter authorityId r.id)
        with ⟨e, he⟩ | ⟨-, hnew, hok⟩
      · have hconnect : a.connect h.bus = (.error e.toFault, a, h.bus) := by
          unfold Agent.connect CredentialClient.start
          rw [hlistening, hfilter, he]
          rfl
        simp only [hconnect]
        exact .refused ⟨rfl, rfl, rfl, rfl, rfl⟩ rfl rfl
      · have hconnect : a.connect h.bus =
            (.ok (), { a with credentials := { a.credentials with listening := true } },
              h.bus.subscribed (agentFilter authorityId r.id) (agentFilter authorityId r.id)) := by
          unfold Agent.connect CredentialClient.start
          rw [hlistening, hfilter, hok]
          rfl
        simp only [hconnect]
        refine .begun ⟨rfl, rfl, rfl, rfl, rfl⟩ rfl rfl ?_ (fun a' ha' => ?_) (fun _ => hnew) rfl
        · exact iff_of_false (Option.some_ne_none _) fun hnone => nomatch hagent.symm.trans hnone
        · cases ha'
          exact ⟨htopics, rfl⟩

/-- **Running an agent ends in one of the three ways.** -/
theorem runs_agentConnect (h : Host) (agent : AgentModel) :
    h.Runs agent (h.agentConnect agent).1 (h.agentConnect agent).2 := by
  unfold agentConnect
  split
  · next hlive =>
    refine .live ?_
    simpa [agent?, agentIds, List.find?_isSome] using hlive
  · next hdead =>
    have hnew : agent.id ∉ h.agentIds := by
      simpa [agent?, agentIds, List.find?_isSome] using hdead
    obtain ⟨hmade, hsteady₁, hagents₁, hbus₁⟩ := h.createRuntime_frame agent
    rcases hcreate : h.createRuntime agent with ⟨result₁, h₁⟩
    rw [hcreate] at hmade hsteady₁ hagents₁ hbus₁
    cases result₁ with
    | error fault => exact .refused hnew hsteady₁ hagents₁ hbus₁
    | ok r =>
      obtain ⟨hid, hkind, hr⟩ := make_eq_ok hmade.symm
      have hbegins := h₁.begins_connectRuntime hr
      rcases hconnect : h₁.connectRuntime r with ⟨result₂, h₂⟩
      rw [hconnect] at hbegins
      dsimp only at hsteady₁ hbus₁ hagents₁ hbegins ⊢
      cases hbegins with
      | refused hsteady₂ hagents₂ hbus₂ =>
        simp only [hconnect]
        -- what was made is handed back, which changes neither the agents nor the bus
        refine .refused hnew ((hsteady₁.trans hsteady₂).trans (h₂.steady_disposeRuntime agent.id))
          ?_ ((h₂.bus_disposeRuntime agent.id).trans (hbus₂.trans hbus₁))
        obtain ⟨_, _, hlogs⟩ := h₂.disposeRuntime_logs agent.id
        exact hlogs.agents.trans (hagents₂.trans hagents₁)
      | @begun r' _ hsteady₂ hagents₂ hid' hnone' hr' hfree hbus₂ =>
        simp only [hconnect]
        rw [hbus₁] at hbus₂ hfree
        refine .began hnew ((hsteady₁.trans hsteady₂).trans ⟨rfl, rfl, rfl, rfl, rfl⟩)
          (hid'.trans hid) hr' (fun hnone => hkind.mp (hnone'.mp hnone)) ?_ ?_ hbus₂
        · rw [← hid]
          exact hfree
        · show h₂.agents ++ [r'] = h.agents ++ [r']
          rw [hagents₂, hagents₁]

theorem make_of_neverFails {h : Host} (hfactory : h.factory.NeverFails) (agent : AgentModel) :
    ∃ r, h.make agent = .ok r := by
  have hnone : h.refusal? .create agent.id agent.name = none := hfactory.willing _ _ _ _
  unfold make
  rw [hnone]
  cases hkind : h.factory.kind with
  | inert => exact ⟨_, rfl⟩
  | usual config keys =>
    obtain ⟨pair, hpair⟩ := hfactory.keys config keys hkind h.createdCount
    dsimp only
    rw [hpair]
    exact ⟨_, rfl⟩

/-- A factory that never fails has every agent begin whose topic is free on a bus that works. -/
theorem connectRuntime_ok {h : Host} (hfactory : h.factory.NeverFails)
    (hconnected : h.bus.connected = true) (hdown : h.bus.down = []) {authorityId : String}
    {r : Runtime} (hr : r.AwaitsOn authorityId)
    (hfree : r.agent ≠ none → agentFilter authorityId r.id ∉ h.bus.filters) :
    ∃ r', (h.connectRuntime r).1 = .ok r' := by
  have hnone : h.refusal? .connect r.id r.name = none := hfactory.willing _ _ _ _
  unfold connectRuntime
  rw [hnone]
  cases ha : r.agent with
  | none => exact ⟨_, rfl⟩
  | some a =>
    -- the agent listens to its own filter, which nobody has taken
    obtain ⟨htopics, hlistening⟩ := hr a ha
    have hfilter : a.credentials.filter = agentFilter authorityId r.id := by
      unfold CredentialClient.filter agentFilter
      rw [htopics]
    have hnew : agentFilter authorityId r.id ∉ h.bus.filters :=
      hfree (ha ▸ Option.some_ne_none a)
    unfold Agent.connect CredentialClient.start
    simp only [hlistening, hfilter,
      h.bus.subscribe_of_not_mem hconnected hdown hnew (agentFilter authorityId r.id)]
    exact ⟨_, rfl⟩

/-- A factory that never fails has every agent run whose topic is free on a bus that works. -/
theorem agentConnect_ok {h : Host} (hfactory : h.factory.NeverFails)
    (hconnected : h.bus.connected = true) (hdown : h.bus.down = []) {agent : AgentModel}
    (hfree : h.factory.kind ≠ .inert →
      agentFilter h.topics.authorityId agent.id ∉ h.bus.filters) :
    (h.agentConnect agent).1 = .ok () := by
  unfold agentConnect
  split
  · rfl
  · obtain ⟨r, hmake⟩ := make_of_neverFails hfactory agent
    obtain ⟨hid, hkind, hr⟩ := make_eq_ok hmake
    obtain ⟨hmade, hsteady, -, hbus⟩ := h.createRuntime_frame agent
    rcases hcreate : h.createRuntime agent with ⟨result, h₁⟩
    rw [hcreate] at hmade hsteady hbus
    obtain rfl : result = .ok r := hmade.trans hmake
    dsimp only at hsteady hbus ⊢
    obtain ⟨r', hbegun⟩ : ∃ r', (h₁.connectRuntime r).1 = .ok r' := by
      refine connectRuntime_ok (hsteady.factory ▸ hfactory) (hbus ▸ hconnected) (hbus ▸ hdown) hr ?_
      intro hsome
      rw [hbus, hid]
      exact hfree (mt hkind.mpr hsome)
    rcases hconnect : h₁.connectRuntime r with ⟨result₂, h₂⟩
    rw [hconnect] at hbegun
    cases hbegun
    rfl

/-! ## Stopping an agent -/

/-- How stopping an agent ends. -/
inductive Ends (h : Host) (id : String) : Host → Prop where
  /-- There is no such agent. -/
  | unknown : id ∉ h.agentIds → Ends h id h
  /-- The agent is live no more. -/
  | ended {r : Runtime} {h' : Host} : r ∈ h.agents → r.id = id → h.Steady h' →
      h'.agents = h.agents.filter (fun r => r.id != id) →
      (h.factory.Willing → r.ListensOn h.topics.authorityId →
        h'.bus = r.leaveBus h.topics.authorityId h.bus) →
      Ends h id h'

/-- An agent that ends without being refused lets go of its topic. -/
theorem bus_disconnectRuntime {h : Host} (hwilling : h.factory.Willing) {r : Runtime}
    (hr : r.ListensOn h.topics.authorityId) :
    (h.disconnectRuntime r).bus = r.leaveBus h.topics.authorityId h.bus := by
  unfold disconnectRuntime refusal? Runtime.leaveBus
  rw [hwilling]
  cases hagent : r.agent with
  | none => rfl
  | some a =>
    obtain ⟨htopics, hlistening⟩ := hr a hagent
    have hfilter : a.credentials.filter = agentFilter h.topics.authorityId r.id := by
      unfold CredentialClient.filter agentFilter
      rw [htopics]
    show (a.disconnect h.bus).2 = _
    unfold Agent.disconnect CredentialClient.stop
    rw [hlistening, hfilter]
    rfl

/-- **Stopping an agent ends in one of the two ways.** -/
theorem ends_agentDisconnect (h : Host) (id : String) : h.Ends id (h.agentDisconnect id).2 := by
  unfold agentDisconnect
  cases hfind : h.agent? id with
  | none =>
    refine .unknown fun hmem => ?_
    obtain ⟨r, hr, rfl⟩ := List.mem_map.mp hmem
    have hnone := List.find?_eq_none.mp hfind r hr
    exact hnone (beq_self_eq_true r.id)
  | some r =>
    have hmem : r ∈ h.agents := List.mem_of_find?_eq_some hfind
    have hid : (r.id == id) = true :=
      List.find?_some (p := fun r : Runtime => r.id == id) hfind
    -- the agent is taken out first, and then ends and is handed back without being live
    refine .ended hmem (beq_iff_eq.mp hid) ?_ ?_ ?_
    · have hremoved : h.Steady (h.removeAgent id) := ⟨rfl, rfl, rfl, rfl, rfl⟩
      exact hremoved.trans ((h.removeAgent id).steady_endAgent r)
    · obtain ⟨_, hlogs₁⟩ := (h.removeAgent id).disconnectRuntime_logs r
      obtain ⟨_, _, hlogs₂⟩ := ((h.removeAgent id).disconnectRuntime r).disposeRuntime_logs r.id
      exact hlogs₂.agents.trans hlogs₁.agents
    · intro hwilling hr
      have hend := bus_disconnectRuntime (h := h.removeAgent id) hwilling hr
      exact (bus_disposeRuntime _ r.id).trans hend

/-! ## Messages -/

theorem Runs.steady {h h' : Host} {agent : AgentModel} {result : Except Error Unit}
    (hruns : h.Runs agent result h') : h.Steady h' := by
  cases hruns with
  | live _ => exact .refl h
  | refused _ hsteady _ _ => exact hsteady
  | began _ hsteady _ _ _ _ _ _ => exact hsteady

theorem Ends.steady {h h' : Host} {id : String} (hends : h.Ends id h') : h.Steady h' := by
  cases hends with
  | unknown _ => exact .refl h
  | ended _ _ hsteady _ _ => exact hsteady

/-- A property that running one agent keeps is kept by a welcome. -/
theorem welcome_induction {P : Host → Prop} {h : Host}
    (hregistry : ∀ registry, P { h with registry := registry })
    (hstep : ∀ h agent, P h → P (h.agentConnect agent).2) (plugins : List Plugin)
    (agents : List AgentModel) : P (h.welcome plugins agents).2 := by
  exact List.foldlRecOn agents _ (hregistry _) fun h hP agent _ => hstep h agent hP

theorem steady_welcome (h : Host) (plugins : List Plugin) (agents : List AgentModel) :
    h.Steady (h.welcome plugins agents).2 := by
  refine welcome_induction (P := h.Steady) (fun _ => ⟨rfl, rfl, rfl, rfl, rfl⟩) ?_ plugins agents
  intro h' agent hsteady
  exact hsteady.trans (h'.runs_agentConnect agent).steady

/-- A message changes nothing, or it has agents run or one agent stop. -/
theorem handle_cases (h : Host) (m : Message) : h.handle m = h ∨
    (∃ plugins agents, h.handle m = (h.welcome plugins agents).2) ∨
    (∃ agent, h.handle m = (h.agentConnect agent).2) ∨
    ∃ id, h.handle m = (h.agentDisconnect id).2 := by
  unfold handle
  split
  · split
    · next host plugins agents _ =>
      split
      · exact .inr (.inl ⟨plugins, agents, rfl⟩)
      · exact .inl rfl
    · next agent _ => exact .inr (.inr (.inl ⟨agent, rfl⟩))
    · next agentId _ => exact .inr (.inr (.inr ⟨agentId, rfl⟩))
    · exact .inl rfl
  · exact .inl rfl

/-- Whatever a message says, it does not concern the connection. -/
theorem steady_handle (h : Host) (m : Message) : h.Steady (h.handle m) := by
  rcases h.handle_cases m with heq | ⟨plugins, agents, heq⟩ | ⟨agent, heq⟩ | ⟨id, heq⟩
  · rw [heq]
    exact .refl h
  · rw [heq]
    exact h.steady_welcome plugins agents
  · rw [heq]
    exact (h.runs_agentConnect agent).steady
  · rw [heq]
    exact (h.ends_agentDisconnect id).steady

end Host

end Coordination
