import Coordination.Proofs.Host.Stop
import Coordination.Proofs.Topic.Filters
import Coordination.Reproducible
/-!
# Live agents and the table of the bus

An agent that begins subscribes to its topic, and lets go of it when it ends.  In between only one
thing can take the subscription away: an attempt to connect that fails, since a host that gives up
an attempt leaves the broker and clears the table of the bus, which all its agents share.  The
agents stay live, and nothing subscribes them again.
-/

namespace Coordination

/-! ## Filters that differ -/

/-- The filter of an agent whose id stands for itself. -/
theorem agentFilter_of_names {authorityId id : String} (hid : Topic.Names authorityId id) :
    agentFilter authorityId id = Topic.event Topic.any authorityId Topic.absent id := by
  unfold agentFilter Generator.subscribeAsAgent Generator.senderSegment
  rw [if_neg hid.ne_authority]
  rfl

/-- The filter of a host whose id stands for itself. -/
theorem subscribeAsHost_of_names {authorityId id : String} (hid : Topic.Names authorityId id) :
    Generator.subscribeAsHost ⟨authorityId, id⟩ =
      Topic.event Topic.any authorityId id Topic.absent := by
  unfold Generator.subscribeAsHost Generator.senderSegment
  rw [if_neg hid.ne_authority]
  rfl

/-- No other agent listens where such an agent does. -/
theorem agentFilter_ne {authorityId id other : String} (hid : Topic.Names authorityId id)
    (hne : other ≠ id) : agentFilter authorityId other ≠ agentFilter authorityId id := by
  rw [agentFilter_of_names hid]
  unfold agentFilter Generator.subscribeAsAgent Generator.senderSegment Generator.subscribeAs
  rw [Ne, Topic.event_eq_event_iff]
  intro heq
  have hsegment : (if other = authorityId then Topic.absent else other) = id := by
    simpa [Address.segment] using heq
  split at hsegment
  · exact hid.ne_absent hsegment.symm
  · exact hne hsegment

/-- Nor does a host. -/
theorem agentFilter_ne_host {authorityId id : String} (hid : Topic.Names authorityId id)
    (hostId : String) :
    agentFilter authorityId id ≠ Generator.subscribeAsHost ⟨authorityId, hostId⟩ := by
  rw [agentFilter_of_names hid]
  unfold Generator.subscribeAsHost Generator.subscribeAs
  rw [Ne, Topic.event_eq_event_iff]
  intro heq
  have hsplit := congrArg (Text.split '/') heq
  rw [Text.split_append_split, Text.split_append_split, Text.split_of_not_mem hid.slash_not_mem]
    at hsplit
  -- the last segment of the one is the id, that of the other the placeholder
  have hlast := congrArg List.getLast? hsplit
  have habsent : Text.split '/' Topic.absent = [Topic.absent] :=
    Text.split_of_not_mem (by decide)
  simp [Address.segment, habsent] at hlast
  exact hid.ne_absent hlast

/-- A host whose id stands for itself listens where no agent does. -/
theorem host_ne_agentFilter {authorityId hostId : String}
    (hhost : Topic.Names authorityId hostId) (id : String) :
    Generator.subscribeAsHost ⟨authorityId, hostId⟩ ≠ agentFilter authorityId id := by
  rw [subscribeAsHost_of_names hhost]
  unfold agentFilter Generator.subscribeAsAgent Generator.subscribeAs
  rw [Ne, Topic.event_eq_event_iff]
  intro heq
  have hsplit := congrArg (Text.split '/') heq
  rw [Text.split_append_split, Text.split_append_split] at hsplit
  have habsent : Text.split '/' Topic.absent = [Topic.absent] :=
    Text.split_of_not_mem (by decide)
  have hfirst := congrArg List.head? hsplit
  simp [Address.segment, habsent, Text.split_of_not_mem hhost.slash_not_mem] at hfirst
  exact hhost.ne_absent hfirst

namespace Host

/-! ## What connecting changes -/

/-- Two states of one host, with the same topics and the same factory. -/
structure SameSetup (h h' : Host) : Prop where
  topics : h'.topics = h.topics
  factory : h'.factory = h.factory

theorem SameSelf.sameSetup {h h' : Host} (hsame : h.SameSelf h') : h.SameSetup h' :=
  ⟨hsame.topics, hsame.factory⟩

/-- The inbox is served after the host announced itself, and it was not served before. -/
theorem announce_changes (h : Host) (givenUp : Bool) (hok : (h.announce givenUp).1 = .ok ()) :
    h.inbox ∉ h.bus.filters ∧
      (h.announce givenUp).2.bus.filters = h.bus.filters ++ [h.inbox] := by
  rcases h.bus.subscribe_cases h.inbox h.inbox with ⟨e, he⟩ | ⟨-, hnew, hadded⟩
  · simp only [announce, he] at hok
    cases hok
  · simp only [announce, hadded]
    refine ⟨hnew, ?_⟩
    rw [Bus.filters_publishEvent]
    split
    · rw [Bus.filters_closeHandler, Bus.filters_subscribed]
    · exact Bus.filters_subscribed _ _ _

/-- Entering the broker leaves the table alone until the host announces itself. -/
theorem enter_changes (h : Host) (admission : Admission) (token : String) (givenUp : Bool)
    (hok : (h.enter admission token givenUp).1 = .ok ()) : h.inbox ∉ h.bus.filters ∧
      (h.enter admission token givenUp).2.bus.filters = h.bus.filters ++ [h.inbox] := by
  unfold enter at hok ⊢
  split at hok
  · cases hok
  · next endpoint _ =>
    obtain ⟨bus, hsubscriptions, ⟨-, detail, hconnect⟩ | ⟨-, hconnect⟩⟩ :=
      h.bus.connect_cases admission token endpoint
    · rw [hconnect] at hok
      cases hok
    · rw [hconnect] at hok ⊢
      have hfilters : h.bus.filters = bus.filters := by
        rw [Bus.filters, ← hsubscriptions, Bus.filters]
      rw [hfilters]
      exact announce_changes { h with bus := bus } givenUp hok

theorem attempt_changes (h : Host) (admission : Admission) (w : Web)
    (hok : (h.attempt admission w).1 = .ok ()) : h.inbox ∉ h.bus.filters ∧
      (h.attempt admission w).2.1.bus.filters = h.bus.filters ++ [h.inbox] := by
  unfold attempt at hok ⊢
  split at hok
  · cases hok
  · next discovery _ _ =>
    dsimp only at hok ⊢
    split at hok
    · cases hok
    · next token w' _ =>
      exact enter_changes { h with discovery := discovery } admission token.token w'.cancelled hok

/-- How connecting ends. -/
inductive Connects (h : Host) : Except Error Unit → Host → Prop where
  /-- The host is up already. -/
  | up : h.isConnected = true → Connects h (.ok ()) h
  /-- The host is up from now on. -/
  | entered {h' : Host} : h.isConnected = false → h.SameSetup h' → h'.agents = h.agents →
      h.inbox ∉ h.bus.filters → h'.bus.filters = h.bus.filters ++ [h.inbox] →
      Connects h (.ok ()) h'
  /-- The host is down, and nothing is left in the table. -/
  | failed {e : Error} {h' : Host} : h.SameSetup h' → h'.agents = h.agents →
      h'.state.value = .disconnected → h'.bus.filters = [] → Connects h (.error e) h'

/-- **Connecting ends in one of the three ways.** -/
theorem connects_connect (h : Host) (admission : Admission) (w : Web) :
    h.Connects (h.connect admission w).1 (h.connect admission w).2.1 := by
  have hagents := (h.undisturbed_connect admission w).agents
  have hsetup := (h.relinked_connect admission w).sameSelf.sameSetup
  unfold connect at hagents hsetup ⊢
  split at hagents
  · next hup =>
    rw [if_pos hup]
    exact .up hup
  · next hup =>
    rw [if_neg hup] at hsetup ⊢
    let h₀ : Host := { h with state := h.state.replace .connecting }
    -- the state that says that the host connects is not read by the attempt
    have hfilters := attempt_changes h₀ admission w
    rcases hattempt : h₀.attempt admission w with ⟨result, h', w'⟩
    rw [hattempt] at hfilters
    simp only [show { h with state := h.state.replace .connecting } = h₀ from rfl, hattempt]
      at hagents hsetup ⊢
    cases result with
    | ok _ =>
      obtain ⟨hnew, hadded⟩ := hfilters rfl
      have hdown : h.isConnected = false := by simpa using hup
      exact .entered hdown hsetup hagents hnew hadded
    | error e => exact .failed hsetup hagents rfl (Bus.filters_disconnect _)

/-! ## Agents that are cut off -/

/-- The live agents that are cut off after an attempt to connect: all of them if it fails. -/
def cutOffUnless (h : Host) (cut : List String) : Except Error Unit → List String
  | .ok () => cut
  | .error _ => h.agentIds

/-- The live agents that are cut off after an operation.  Only an attempt to connect cuts agents
off. -/
def cutOffBy (h : Host) (cut : List String) : Operation → List String
  | .connect admission w => h.cutOffUnless cut (h.connect admission w).1
  | op => cut.filter fun id => id ∈ (h.perform op).agentIds

/-- The live agents that are cut off after a run: those that were live when an attempt to connect
failed, and have been live ever since. -/
def cutOff (h : Host) (cut : List String) : List Operation → List String
  | [] => cut
  | op :: ops => (h.perform op).cutOff (h.cutOffBy cut op) ops

/-- All live agents fetch credentials, and of those with a topic of their own just the ones that are
not cut off have it in the table.  A host that came up has its inbox there. -/
structure Tuned (client : ClientConfig) (keys : Nat → Except Error KeyPair) (g : Generator)
    (h : Host) (cut : List String) : Prop where
  factory : h.factory = .usual client keys
  topics : h.topics = g
  agents : ∀ r ∈ h.agents, r.agent ≠ none ∧ r.ListensOn g.authorityId
  cut_live : ∀ id ∈ cut, id ∈ h.agentIds
  registered : ∀ id ∈ h.agentIds, Topic.Names g.authorityId id →
    (agentFilter g.authorityId id ∈ h.bus.filters ↔ id ∉ cut)
  inbox : Topic.Names g.authorityId g.senderId → h.state.value = .connected →
    g.subscribeAsHost ∈ h.bus.filters

section Steps

variable {client : ClientConfig} {keys : Nat → Except Error KeyPair} {g : Generator} {h h' : Host}
  {cut : List String}

/-- Only the agents, the table and the connection matter. -/
theorem Tuned.congr (ht : Tuned client keys g h cut) (hsteady : h.Steady h')
    (hagents : h'.agents = h.agents) (hfilters : h'.bus.filters = h.bus.filters) :
    Tuned client keys g h' cut where
  factory := hsteady.factory.trans ht.factory
  topics := hsteady.topics.trans ht.topics
  agents := by
    rw [hagents]
    exact ht.agents
  cut_live := by
    unfold agentIds
    rw [hagents]
    exact ht.cut_live
  registered := by
    unfold agentIds
    rw [hagents, hfilters]
    exact ht.registered
  inbox := by
    rw [hsteady.state, hfilters]
    exact ht.inbox

/-- Of the agents that are cut off only the live ones matter, and they are all live. -/
theorem Tuned.filter_cut (ht : Tuned client keys g h cut) :
    cut.filter (fun id => id ∈ h.agentIds) = cut := by
  refine List.filter_eq_self.mpr fun id hid => ?_
  rw [decide_eq_true_iff]
  exact ht.cut_live id hid

/-- An agent that begins takes its topic, and concerns no other. -/
theorem Tuned.runs (ht : Tuned client keys g h cut) {agent : AgentModel}
    {result : Except Error Unit} (hruns : h.Runs agent result h') :
    Tuned client keys g h' cut := by
  obtain rfl := ht.topics
  cases hruns with
  | live _ => exact ht
  | refused _ hsteady hagents hbus => exact ht.congr hsteady hagents (by rw [hbus])
  | @began r _ hnew hsteady hid hlistens hinert _ hagents hbus =>
    have hsome : r.agent ≠ none := fun hnone => by
      have hkind := hinert hnone
      rw [ht.factory] at hkind
      cases hkind
    have hids : h'.agentIds = h.agentIds ++ [agent.id] := by rw [agentIds_append hagents, hid]
    -- the table gains the filter of the agent, and nothing else
    have hfilters : ∀ filter, filter ∈ h'.bus.filters ↔
        filter ∈ h.bus.filters ∨ filter = agentFilter h.topics.authorityId agent.id := by
      intro filter
      rw [hbus, Runtime.mem_filters_enterBus, hid]
      simp only [ne_eq, hsome, not_false_eq_true, true_and]
    refine ⟨hsteady.factory.trans ht.factory, hsteady.topics, ?_, ?_, ?_, ?_⟩
    · intro r' hr'
      rw [hagents, List.mem_append, List.mem_singleton] at hr'
      rcases hr' with hold | rfl
      · exact ht.agents r' hold
      · exact ⟨hsome, hlistens⟩
    · intro id hcut
      rw [hids]
      exact List.mem_append_left _ (ht.cut_live id hcut)
    · intro id hlive hnames
      rw [hfilters]
      by_cases heq : id = agent.id
      · -- it was not live, so that no teardown has cut it off
        have huncut : id ∉ cut := fun hcut => hnew (heq ▸ ht.cut_live id hcut)
        exact iff_of_true (.inr (by rw [heq])) huncut
      · have hold : id ∈ h.agentIds := by simpa [hids, heq] using hlive
        rw [← ht.registered id hold hnames]
        exact or_iff_left (Ne.symm (agentFilter_ne hnames (Ne.symm heq)))
    · intro hnames hup
      rw [hsteady.state] at hup
      exact (hfilters _).mpr (.inl (ht.inbox hnames hup))

/-- An agent that ends lets go of its topic, and concerns no other. -/
theorem Tuned.ends (ht : Tuned client keys g h cut) {id : String} (hends : h.Ends id h') :
    Tuned client keys g h' (cut.filter fun id => id ∈ h'.agentIds) := by
  obtain rfl := ht.topics
  cases hends with
  | unknown _ =>
    rw [ht.filter_cut]
    exact ht
  | @ended r _ hr hid hsteady hagents hbus =>
    subst hid
    obtain ⟨hsome, hlistens⟩ := ht.agents r hr
    have hwilling : h.factory.Willing := by
      rw [ht.factory]
      exact AgentFactory.willing_usual client keys
    have hfilters : ∀ filter, filter ∈ h'.bus.filters ↔
        filter ∈ h.bus.filters ∧ filter ≠ agentFilter h.topics.authorityId r.id := by
      intro filter
      rw [hbus hwilling hlistens, Runtime.mem_filters_leaveBus]
      simp only [ne_eq, hsome, not_false_eq_true, true_implies]
    refine ⟨hsteady.factory.trans ht.factory, hsteady.topics, ?_, ?_, ?_, ?_⟩
    · intro r' hr'
      rw [hagents] at hr'
      exact ht.agents r' (List.mem_of_mem_filter hr')
    · intro id hcut
      exact of_decide_eq_true (List.mem_filter.mp hcut).2
    · intro id hlive hnames
      -- agents with different ids listen on different filters, so this one kept its own
      obtain ⟨hold, hne⟩ := (mem_agentIds_filter hagents).mp hlive
      have hother := agentFilter_ne hnames (Ne.symm hne)
      rw [hfilters, ht.registered id hold hnames, List.mem_filter, decide_eq_true hlive]
      simp [Ne.symm hother]
    · intro hnames hup
      rw [hsteady.state] at hup
      exact (hfilters _).mpr ⟨ht.inbox hnames hup, host_ne_agentFilter hnames r.id⟩

/-- Connecting cuts off all agents or none. -/
theorem Tuned.connects (ht : Tuned client keys g h cut) {result : Except Error Unit}
    (hconnects : h.Connects result h') :
    Tuned client keys g h' (h.cutOffUnless cut result) := by
  obtain rfl := ht.topics
  cases hconnects with
  | up _ => exact ht
  | entered _ hsetup hagents _ hadded =>
    have hids : h'.agentIds = h.agentIds := congrArg (List.map Runtime.id) hagents
    refine ⟨hsetup.factory.trans ht.factory, hsetup.topics, ?_, ?_, ?_, ?_⟩
    · rw [hagents]
      exact ht.agents
    · rw [hids]
      exact ht.cut_live
    · intro id hlive hnames
      rw [hids] at hlive
      show _ ↔ id ∉ cut
      rw [hadded, ← ht.registered id hlive hnames, List.mem_append, List.mem_singleton]
      exact or_iff_left (agentFilter_ne_host hnames h.topics.senderId)
    · intro _ _
      rw [hadded]
      exact List.mem_append_right _ (List.mem_singleton_self _)
  -- a failed attempt clears the table, so that all agents are cut off at once
  | failed hsetup hagents hdown hcleared =>
    have hids : h'.agentIds = h.agentIds := congrArg (List.map Runtime.id) hagents
    refine ⟨hsetup.factory.trans ht.factory, hsetup.topics, ?_, ?_, ?_, ?_⟩
    · rw [hagents]
      exact ht.agents
    · intro id hid
      rw [hids]
      exact hid
    · intro id hlive _
      rw [hids] at hlive
      rw [hcleared]
      exact iff_of_false List.not_mem_nil fun huncut => huncut hlive
    · intro _ hup
      rw [hdown] at hup
      cases hup

/-- Stopping leaves no agent, or changes nothing. -/
theorem Tuned.stop (ht : Tuned client keys g h cut) :
    Tuned client keys g h.stop (cut.filter fun id => id ∈ h.stop.agentIds) := by
  by_cases hdown : h.state.value = .disconnected
  · rw [stop_of_disconnected hdown, ht.filter_cut]
    exact ht
  -- after a stop no agent is live and the host is down, so that nothing is left to be shown
  · have hidle := idle_stop hdown
    have hsetup := h.sameSelf_stop.sameSetup
    refine ⟨hsetup.factory.trans ht.factory, hsetup.topics.trans ht.topics, ?_, ?_, ?_, ?_⟩
    · intro r hr
      have hnone := List.map_eq_nil_iff.mp hidle.agents
      rw [hnone] at hr
      cases hr
    · intro id hcut
      exact of_decide_eq_true (List.mem_filter.mp hcut).2
    · intro id hlive
      rw [hidle.agents] at hlive
      cases hlive
    · intro _ hup
      rw [hidle.state] at hup
      cases hup

/-- Running agents cuts nobody off. -/
theorem Tuned.agentConnect (ht : Tuned client keys g h cut) (agent : AgentModel) :
    Tuned client keys g (h.agentConnect agent).2 cut :=
  ht.runs (h.runs_agentConnect agent)

theorem Tuned.welcome (ht : Tuned client keys g h cut) (plugins : List Plugin)
    (agents : List AgentModel) : Tuned client keys g (h.welcome plugins agents).2 cut := by
  refine welcome_induction (P := fun h => Tuned client keys g h cut) ?_ ?_ plugins agents
  · exact fun _ => ht.congr ⟨rfl, rfl, rfl, rfl, rfl⟩ rfl rfl
  · exact fun _ agent ht => ht.agentConnect agent

/-- **Every operation keeps the agents that are not cut off in tune.** -/
theorem Tuned.perform (ht : Tuned client keys g h cut) {op : Operation} (hfits : op.Fits h) :
    Tuned client keys g (h.perform op) (h.cutOffBy cut op) := by
  -- where no live agent ends, all those that are cut off stay live
  have hall : ∀ {h' : Host}, Tuned client keys g h' cut →
      Tuned client keys g h' (cut.filter fun id => id ∈ h'.agentIds) := by
    intro h' ht'
    rw [ht'.filter_cut]
    exact ht'
  cases op with
  | handle m =>
    show Tuned client keys g (h.handle m) (cut.filter fun id => id ∈ (h.handle m).agentIds)
    rcases h.handle_cases m with heq | ⟨plugins, agents, heq⟩ | ⟨agent, heq⟩ | ⟨id, heq⟩
    · rw [heq]
      exact hall ht
    · rw [heq]
      exact hall (ht.welcome plugins agents)
    · rw [heq]
      exact hall (ht.agentConnect agent)
    · rw [heq]
      exact ht.ends (h.ends_agentDisconnect id)
  | welcome plugins agents => exact hall (ht.welcome plugins agents)
  | agentConnect agent => exact hall (ht.agentConnect agent)
  | agentDisconnect agentId => exact ht.ends (h.ends_agentDisconnect agentId)
  | stop => exact ht.stop
  | connect admission w => exact ht.connects (h.connects_connect admission w)
  | rewire bus =>
    have hfilters := Bus.filters_congr hfits.table
    have ht' : Tuned client keys g { h with bus := bus } cut :=
      ht.congr ⟨rfl, rfl, rfl, rfl, rfl⟩ rfl hfilters
    exact hall ht'

/-- Along a run the agents that are not cut off stay in tune. -/
theorem Tuned.run {ops : List Operation} (ht : Tuned client keys g h cut)
    (hfeasible : h.Feasible ops) :
    Tuned client keys g (ops.foldl Host.perform h) (h.cutOff cut ops) := by
  induction ops generalizing h cut with
  | nil => exact ht
  | cons op ops ih =>
    obtain ⟨hfits, hrest⟩ := hfeasible
    exact ih (ht.perform hfits) hrest

end Steps

/-! ## Runs -/

/-- A new host has no agents, and none that are cut off. -/
theorem tuned_create {config : HostConfig} {client : ClientConfig}
    {keys : Nat → Except Error KeyPair} {h : Host}
    (hcreate : create config (.usual client keys) = .ok h) :
    Tuned client keys h.topics h [] := by
  obtain ⟨discovery, rfl⟩ := create_eq_ok hcreate
  refine ⟨rfl, rfl, ?_, ?_, ?_, ?_⟩
  · intro r hr
    cases hr
  · intro id hid
    cases hid
  · intro id hid
    cases hid
  · intro _ hup
    cases hup

/-- **Which live agents listen.**  After any run of a new host whose agents fetch credentials, each
live agent with a topic of its own has its filter in the table exactly when no attempt to connect
has failed since it began. -/
theorem registered_iff_not_cutOff {config : HostConfig} {client : ClientConfig}
    {keys : Nat → Except Error KeyPair} {h : Host}
    (hcreate : create config (.usual client keys) = .ok h) {ops : List Operation}
    (hfeasible : h.Feasible ops) :
    let h' := ops.foldl Host.perform h
    ∀ r ∈ h'.agents, Topic.Names h.topics.authorityId r.id → ∃ agent, r.agent = some agent ∧
      (agent.credentials.filter ∈ h'.bus.filters ↔ r.id ∉ h.cutOff [] ops) := by
  intro h' r hr hnames
  have ht : Tuned client keys h.topics h' (h.cutOff [] ops) :=
    (tuned_create hcreate).run hfeasible
  obtain ⟨hsome, hlistens⟩ := ht.agents r hr
  obtain ⟨agent, hagent⟩ := Option.ne_none_iff_exists'.mp hsome
  have hfilter : agent.credentials.filter = agentFilter h.topics.authorityId r.id := by
    obtain ⟨htopics, -⟩ := hlistens agent hagent
    unfold CredentialClient.filter agentFilter
    rw [htopics]
  refine ⟨agent, hagent, ?_⟩
  rw [hfilter]
  exact ht.registered r.id (List.mem_map_of_mem hr) hnames

/-- The connection was lost and two attempts to connect were needed; one agent began before, the
other after. -/
theorem registered_iff_not_cutOff_two_agents :
    let config : HostConfig :=
      { discovery := { authorityUri := "http://auth" }, hostId := "h1", hostSecret := "s" }
    let keys : Nat → Except Error KeyPair := fun _ => .ok (PublicKey.keyPair ⟨35, 5⟩)
    let attempt : Operation := .connect (fun _ _ => .ok ()) (admittingWeb 1)
    let before : List Operation := [attempt, .agentConnect { id := "a" }]
    let after : List Operation := [attempt, attempt, .agentConnect { id := "b" }]
    ∃ h, create config (.usual {} keys) = .ok h ∧
      let ops := before ++ .rewire (before.foldl Host.perform h).bus.drop :: after
      let h' := ops.foldl Host.perform h
      h.Feasible ops ∧ h'.isConnected = true ∧ h'.agentIds = ["a", "b"] ∧
        h.cutOff [] ops = ["a"] ∧ ∀ r ∈ h'.agents, ∃ agent, r.agent = some agent ∧
          (agent.credentials.filter ∈ h'.bus.filters ↔ r.id = "b") := by
  intro config keys attempt before after
  -- the run is computed up to what the theorem needs, without its hosts
  have hrun : (match create config (.usual {} keys) with
      | .ok h =>
        let ops := before ++ .rewire (before.foldl Host.perform h).bus.drop :: after
        let h' := ops.foldl Host.perform h
        decide (h'.isConnected = true ∧ h'.agentIds = ["a", "b"] ∧ h.cutOff [] ops = ["a"] ∧
          ∀ id ∈ h'.agentIds, Topic.Names h.topics.authorityId id)
      | .error _ => false) = true := by decide +kernel
  cases hcreate : create config (.usual {} keys) with
  | error e =>
    rw [hcreate] at hrun
    cases hrun
  | ok h =>
    rw [hcreate] at hrun
    obtain ⟨hup, hids, hcut, hnames⟩ := of_decide_eq_true hrun
    let ops := before ++ .rewire (before.foldl Host.perform h).bus.drop :: after
    have hfeasible : h.Feasible ops :=
      ⟨trivial, trivial, Bus.drifts_drop _, trivial, trivial, trivial, trivial⟩
    refine ⟨h, rfl, hfeasible, hup, hids, hcut, ?_⟩
    intro r hr
    have hlive : r.id ∈ (ops.foldl Host.perform h).agentIds := List.mem_map_of_mem hr
    obtain ⟨agent, hagent, hiff⟩ :=
      registered_iff_not_cutOff hcreate hfeasible r hr (hnames r.id hlive)
    refine ⟨agent, hagent, hiff.trans ?_⟩
    rw [hids] at hlive
    rw [hcut]
    simp only [List.mem_cons, List.not_mem_nil, or_false] at hlive ⊢
    rcases hlive with hid | hid
    · simp [hid]
    · simp [hid]

/-- The connection is lost and the host comes up again: the agent that was live all the time has its
filter in the table no more. -/
theorem live_agent_not_registered :
    let config : HostConfig :=
      { discovery := { authorityUri := "http://auth" }, hostId := "h1", hostSecret := "s" }
    let keys : Nat → Except Error KeyPair := fun _ => .ok (PublicKey.keyPair ⟨35, 5⟩)
    let attempt : Operation := .connect (fun _ _ => .ok ()) (admittingWeb 1)
    let before : List Operation := [attempt, .agentConnect { id := "a" }]
    ∃ h, create config (.usual {} keys) = .ok h ∧
      let ops := before ++ [.rewire (before.foldl Host.perform h).bus.drop, attempt, attempt]
      let h' := ops.foldl Host.perform h
      h.Feasible ops ∧ h'.isConnected = true ∧ h'.agentIds = ["a"] ∧
        ¬ ∀ r ∈ h'.agents, ∀ agent, r.agent = some agent →
          agent.credentials.filter ∈ h'.bus.filters := by
  intro config keys attempt before
  -- the first attempt after the loss fails at the inbox, and the second succeeds
  have hrun : (match create config (.usual {} keys) with
      | .ok h =>
        let ops := before ++ [.rewire (before.foldl Host.perform h).bus.drop, attempt, attempt]
        let h' := ops.foldl Host.perform h
        decide (h'.isConnected = true ∧ h'.agentIds = ["a"]) &&
          h'.agents.any fun r => match r.agent with
            | some agent => decide (agent.credentials.filter ∉ h'.bus.filters)
            | none => false
      | .error _ => false) = true := by decide +kernel
  cases hcreate : create config (.usual {} keys) with
  | error e =>
    rw [hcreate] at hrun
    cases hrun
  | ok h =>
    rw [hcreate] at hrun
    obtain ⟨hup, hany⟩ := Bool.and_eq_true_iff.mp hrun
    obtain ⟨hconnected, hids⟩ := of_decide_eq_true hup
    refine ⟨h, rfl, ⟨trivial, trivial, Bus.drifts_drop _, trivial, trivial, trivial⟩,
      hconnected, hids, ?_⟩
    intro hall
    obtain ⟨r, hr, hout⟩ := List.any_eq_true.mp hany
    cases hagent : r.agent with
    | none =>
      rw [hagent] at hout
      cases hout
    | some agent =>
      rw [hagent] at hout
      exact of_decide_eq_true hout (hall r hr agent hagent)

/-- Whenever a host that was up has lost its connection, the next attempt fails: its inbox is still
in the table.  So no agent that is live then listens after the host has come up again. -/
theorem connect_fails_after_loss {config : HostConfig} {client : ClientConfig}
    {keys : Nat → Except Error KeyPair} {h : Host}
    (hcreate : create config (.usual client keys) = .ok h) {ops : List Operation}
    (hfeasible : h.Feasible ops) (hnames : Topic.Names h.topics.authorityId h.topics.senderId) :
    let h' := ops.foldl Host.perform h
    h'.state.value = .connected → h'.bus.connected = false →
      ∀ admission w, ∃ e, (h'.connect admission w).1 = .error e := by
  intro h' hup hlost admission w
  have ht : Tuned client keys h.topics h' (h.cutOff [] ops) :=
    (tuned_create hcreate).run hfeasible
  have hinbox : h'.inbox ∈ h'.bus.filters := by
    unfold Host.inbox
    rw [ht.topics]
    exact ht.inbox hnames hup
  have hconnects := h'.connects_connect admission w
  -- the attempt subscribes the inbox, which the table still has
  generalize (h'.connect admission w).1 = result at hconnects ⊢
  generalize (h'.connect admission w).2.1 = h'' at hconnects
  cases hconnects with
  | up hconnected =>
    unfold isConnected at hconnected
    rw [hlost, Bool.and_false] at hconnected
    cases hconnected
  | entered _ _ _ hnew _ => exact absurd hinbox hnew
  | failed _ _ _ _ => exact ⟨_, rfl⟩

end Host

end Coordination
