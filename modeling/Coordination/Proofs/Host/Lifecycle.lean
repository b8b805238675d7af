import Coordination.Proofs.Host.Account
import Coordination.Host.Lifecycle
/-!
# The lives of the agents of a host

Whatever happens to a host, one thing after another, and whatever its factory and its agents fail to
do: the events of each agent begin and end it in turn, the agent is live exactly between the two,
and the factory gets back every agent that it made, once, when it is no longer live.
-/

namespace Coordination.Host

open AgentCall (created disposed Backed)
open HostEvent (Alternates)

/-! ## Operations -/

inductive Operation where
  /-- A message is handled. -/
  | handle (m : Message)
  /-- The authority welcomes the host. -/
  | welcome (plugins : List Plugin) (agents : List AgentModel)
  /-- An agent is to run. -/
  | agentConnect (agent : AgentModel)
  /-- An agent is to stop. -/
  | agentDisconnect (agentId : String)
  /-- The host is stopped. -/
  | stop
  /-- The host is to connect. -/
  | connect (admission : Admission) (w : Web)
  /-- The bus changes from without: messages arrive, the connection is lost. -/
  | rewire (bus : Bus)

def perform (h : Host) : Operation → Host
  | .handle m => h.handle m
  | .welcome plugins agents => (h.welcome plugins agents).2
  | .agentConnect agent => (h.agentConnect agent).2
  | .agentDisconnect agentId => (h.agentDisconnect agentId).2
  | .stop => h.stop
  | .connect admission w => (h.connect admission w).2.1
  | .rewire bus => { h with bus }

/-! ## The connection

Connecting, leaving the broker and all that happens on the bus concern the connection of the host,
and make no call to the factory. -/

/-- Two states of one host that differ in its connection alone. -/
inductive Relinked (h : Host) : Host → Prop where
  | of (bus : Bus) (state : Watched HostState) (discovery : Discovery) (dispatching : Bool) :
    Relinked h { h with bus, state, discovery, dispatching }

theorem Relinked.refl (h : Host) : h.Relinked h := .of _ _ _ _

theorem Relinked.trans {h h' h'' : Host} (hfirst : h.Relinked h') (hsecond : h'.Relinked h'') :
    h.Relinked h'' := by
  cases hfirst
  cases hsecond
  exact .of _ _ _ _

theorem relinked_stopDispatch (h : Host) : h.Relinked h.stopDispatch := by
  unfold stopDispatch
  split <;> exact .of _ _ _ _

theorem relinked_teardown (h : Host) : h.Relinked h.teardown :=
  h.relinked_stopDispatch.trans (.of _ _ _ _)

theorem relinked_announce (h : Host) (givenUp : Bool) : h.Relinked (h.announce givenUp).2 := by
  unfold announce
  split <;> exact .of _ _ _ _

theorem relinked_enter (h : Host) (admission : Admission) (token : String) (givenUp : Bool) :
    h.Relinked (h.enter admission token givenUp).2 := by
  unfold enter
  split
  · exact .refl h
  · split
    · exact .of _ _ _ _
    · next bus _ =>
      have hbus : h.Relinked { h with bus } := .of _ _ _ _
      exact hbus.trans (relinked_announce _ _)

theorem relinked_attempt (h : Host) (admission : Admission) (w : Web) :
    h.Relinked (h.attempt admission w).2.1 := by
  unfold attempt
  split
  · exact .of _ _ _ _
  · next discovery _ _ =>
    have hdiscovery : h.Relinked { h with discovery } := .of _ _ _ _
    dsimp only
    split
    · exact hdiscovery
    · exact hdiscovery.trans (relinked_enter _ _ _ _)

/-- **Connecting changes the connection alone**, whether or not it succeeds. -/
theorem relinked_connect (h : Host) (admission : Admission) (w : Web) :
    h.Relinked (h.connect admission w).2.1 := by
  unfold connect
  split
  · exact .refl h
  · have hstate : h.Relinked { h with state := h.state.replace .connecting } := .of _ _ _ _
    have hattempt := hstate.trans (relinked_attempt _ admission w)
    split
    · next h' _ heq =>
      rw [heq] at hattempt
      exact hattempt.trans (.of _ _ _ _)
    · next h' _ heq =>
      rw [heq] at hattempt
      exact (hattempt.trans (relinked_teardown _)).trans (.of _ _ _ _)

/-- Two states of a host with the same agents and the same history of them. -/
structure Undisturbed (h h' : Host) : Prop where
  agents : h'.agents = h.agents
  events : h'.events = h.events
  calls : h'.calls = h.calls

/-- What concerns the connection alone does not concern the agents. -/
theorem Relinked.undisturbed {h h' : Host} (hlinked : h.Relinked h') : h.Undisturbed h' := by
  cases hlinked
  exact ⟨rfl, rfl, rfl⟩

theorem undisturbed_stopDispatch (h : Host) : h.Undisturbed h.stopDispatch :=
  h.relinked_stopDispatch.undisturbed

theorem undisturbed_teardown (h : Host) : h.Undisturbed h.teardown :=
  h.relinked_teardown.undisturbed

theorem undisturbed_connect (h : Host) (admission : Admission) (w : Web) :
    h.Undisturbed (h.connect admission w).2.1 :=
  (h.relinked_connect admission w).undisturbed

/-! ## Invariant -/

/-- Between operations the host holds exactly the live agents, no two of one id, and its account
says so. -/
structure Balanced (h : Host) : Prop where
  nodup : h.agentIds.Nodup
  accounts : h.Accounts h.agentIds.toFinset h.agentIds.toFinset

/-- The account is about the events and the calls alone. -/
theorem Accounts.congr {h h' : Host} {held live : Finset String} (hacc : h.Accounts held live)
    (hevents : h'.events = h.events) (hcalls : h'.calls = h.calls) : h'.Accounts held live where
  events id := by
    rw [eventsOf, hevents]
    exact hacc.events id
  counts id := by
    rw [hcalls]
    exact hacc.counts id
  backed := by
    rw [hcalls]
    exact hacc.backed

/-- A host is in balance if its account is about the ids of its agents. -/
theorem Balanced.of_ids {h : Host} {ids : List String} (hids : h.agentIds = ids)
    (hnodup : ids.Nodup) (hacc : h.Accounts ids.toFinset ids.toFinset) : h.Balanced := by
  subst hids
  exact ⟨hnodup, hacc⟩

theorem agentIds_congr {h h' : Host} (hagents : h'.agents = h.agents) :
    h'.agentIds = h.agentIds := by
  rw [agentIds, hagents, agentIds]

/-- What does not concern the agents keeps the balance. -/
theorem Balanced.undisturbed {h h' : Host} (hb : h.Balanced) (hsame : h.Undisturbed h') :
    h'.Balanced :=
  .of_ids (agentIds_congr hsame.agents) hb.nodup (hb.accounts.congr hsame.events hsame.calls)

/-- What a new host has, and what was asked of its configuration. -/
theorem exists_discovery_of_create {config : HostConfig} {factory : AgentFactory} {h : Host}
    (hcreate : create config factory = .ok h) : ∃ discovery : Discovery,
      ¬ Text.isBlank config.hostId ∧ Discovery.create config.discovery = .ok discovery ∧
      h = { id := config.hostId, name := config.hostName.getD config.hostId
            secret := config.hostSecret, discovery := discovery
            topics := ⟨discovery.id, config.hostId⟩, retryDelay := config.retryDelay
            factory := factory } := by
  unfold create at hcreate
  split at hcreate
  · cases hcreate
  · next hblank =>
    split at hcreate
    · cases hcreate
    · cases hdiscovery : Discovery.create config.discovery with
      | error e =>
        rw [hdiscovery] at hcreate
        cases hcreate
      | ok discovery =>
        rw [hdiscovery] at hcreate
        cases hcreate
        exact ⟨discovery, hblank, rfl, rfl⟩

theorem balanced_create {config : HostConfig} {factory : AgentFactory} {h : Host}
    (hcreate : create config factory = .ok h) : h.Balanced := by
  have hempty : h.agents = [] ∧ h.events = [] ∧ h.calls = [] := by
    obtain ⟨discovery, -, -, rfl⟩ := exists_discovery_of_create hcreate
    exact ⟨rfl, rfl, rfl⟩
  obtain ⟨hagents, hevents, hcalls⟩ := hempty
  refine Balanced.of_ids (by rw [agentIds, hagents, List.map_nil]) .nil ⟨?_, ?_, ?_⟩
  · intro id
    rw [eventsOf, hevents]
    exact .nil
  · intro id
    rw [hcalls]
    rfl
  · intro before c after heq
    rw [hcalls] at heq
    cases before <;> cases heq

/-! ## Steps -/

/-- A live agent is found by its id. -/
theorem agent?_isSome_iff {h : Host} {id : String} :
    (h.agent? id).isSome = true ↔ id ∈ h.agentIds := by
  simp [agent?, agentIds, List.find?_isSome]

/-- Running an agent keeps the balance: it is live from now on, or it was live already, or whatever
was made is handed back. -/
theorem Balanced.agentConnect {h : Host} (hb : h.Balanced) (agent : AgentModel) :
    (h.agentConnect agent).2.Balanced := by
  unfold Host.agentConnect
  split
  · exact hb
  · next hnone =>
    have hid : agent.id ∉ h.agentIds := by rwa [agent?_isSome_iff] at hnone
    have hnew : agent.id ∉ h.agentIds.toFinset := by rwa [List.mem_toFinset]
    -- the factory refuses, or the agent does not begin, or it is live
    obtain ⟨r, h₁, hcreate, hr, hlogs₁⟩ | ⟨fault, h₁, hcreate, hlogs₁⟩ :=
      h.createRuntime_cases agent
    · have hacc₁ := hb.accounts.create hnew hlogs₁
      obtain ⟨r', h₂, hconnect, hr', hlogs₂⟩ | ⟨fault, h₂, hconnect, hlogs₂⟩ :=
        h₁.connectRuntime_cases r
      · have hacc₂ := hacc₁.quiet hlogs₂ (fun hc => nomatch hc) (fun hc => nomatch hc)
        have hacc₃ := hacc₂.tellConnected r'.name hnew
        have hagents : h₂.agents = h.agents := hlogs₂.agents.trans hlogs₁.agents
        have hids : (h₂.agents ++ [r']).map Runtime.id = h.agentIds ++ [agent.id] := by
          rw [hagents, List.map_append, List.map_singleton, hr', hr, agentIds]
        have hset : (h.agentIds ++ [agent.id]).toFinset = insert agent.id h.agentIds.toFinset := by
          ext other
          rw [List.mem_toFinset, List.mem_append, Finset.mem_insert, List.mem_toFinset,
            List.mem_singleton, or_comm]
        have hnodup : (h.agentIds ++ [agent.id]).Nodup := by
          rw [← List.concat_eq_append]
          exact hb.nodup.concat hid
        simp only [hcreate, hconnect]
        refine .of_ids hids hnodup ?_
        rw [hset]
        exact hacc₃.congr rfl rfl
      · -- held for the time of two calls, and never live
        have hacc₂ := hacc₁.quiet hlogs₂ (fun hc => nomatch hc) (fun hc => nomatch hc)
        obtain ⟨name, succeeded, hlogs₃⟩ := h₂.disposeRuntime_logs agent.id
        have hacc₃ := hacc₂.dispose (Finset.mem_insert_self _ _) hlogs₃
        rw [Finset.erase_insert hnew] at hacc₃
        simp only [hcreate, hconnect]
        exact .of_ids (agentIds_congr (hlogs₃.agents.trans (hlogs₂.agents.trans hlogs₁.agents)))
          hb.nodup hacc₃
    · have hacc₁ := hb.accounts.quiet hlogs₁ (fun _ => rfl) (fun hc => nomatch hc)
      simp only [hcreate]
      exact .of_ids (agentIds_congr hlogs₁.agents) hb.nodup hacc₁

/-- An agent that ends is handed back and live no more. -/
theorem Accounts.endAgent {h : Host} {held live : Finset String} (hacc : h.Accounts held live)
    {r : Runtime} (hheld : r.id ∈ held) (hlive : r.id ∈ live) :
    (h.endAgent r).2.Accounts (held.erase r.id) (live.erase r.id) ∧
      (h.endAgent r).2.agents = h.agents := by
  obtain ⟨_, hlogs₁⟩ := h.disconnectRuntime_logs r
  obtain ⟨_, _, hlogs₂⟩ := (h.disconnectRuntime r).disposeRuntime_logs r.id
  have hacc₁ := hacc.quiet hlogs₁ (fun hc => nomatch hc) (fun hc => nomatch hc)
  have hacc₂ := (hacc₁.dispose hheld hlogs₂).tellDisconnected hlive
  exact ⟨hacc₂, hlogs₂.agents.trans hlogs₁.agents⟩

theorem Balanced.agentDisconnect {h : Host} (hb : h.Balanced) (agentId : String) :
    (h.agentDisconnect agentId).2.Balanced := by
  unfold Host.agentDisconnect
  cases hfind : h.agent? agentId with
  | none => exact hb
  | some r =>
    have hr : r.id = agentId := by
      have hfound : (r.id == agentId) = true :=
        List.find?_some (p := fun r : Runtime => r.id == agentId) hfind
      exact beq_iff_eq.mp hfound
    have hmem : r.id ∈ h.agentIds.toFinset := by
      rw [List.mem_toFinset, hr, ← agent?_isSome_iff, hfind]
      rfl
    -- the account does not read the list of agents, so taking one out does not touch it
    have hremoved : (h.removeAgent agentId).Accounts h.agentIds.toFinset h.agentIds.toFinset :=
      hb.accounts.congr rfl rfl
    obtain ⟨hacc, hagents⟩ := hremoved.endAgent hmem hmem
    have hids : (h.removeAgent agentId).agentIds = h.agentIds.filter fun id => id != agentId := by
      simp only [agentIds, removeAgent, List.filter_map]
      rfl
    have hset : (h.agentIds.filter fun id => id != agentId).toFinset =
        h.agentIds.toFinset.erase r.id := by
      ext id
      simp [hr, and_comm]
    refine .of_ids ((agentIds_congr hagents).trans hids) (hb.nodup.filter _) ?_
    rw [hset]
    exact hacc

/-- Agents that end one after another are all handed back. -/
theorem Accounts.endAll {rs : List Runtime} {h : Host} (hnodup : (rs.map Runtime.id).Nodup)
    (hacc : h.Accounts (rs.map Runtime.id).toFinset (rs.map Runtime.id).toFinset) :
    (rs.foldl (fun h r => (h.endAgent r).2) h).Accounts ∅ ∅ ∧
      (rs.foldl (fun h r => (h.endAgent r).2) h).agents = h.agents := by
  -- the agents still to end are those held, and those live
  induction rs generalizing h with
  | nil => exact ⟨hacc, rfl⟩
  | cons r rs ih =>
    obtain ⟨hr, hrs⟩ := List.nodup_cons.mp hnodup
    have hset : ((r :: rs).map Runtime.id).toFinset.erase r.id = (rs.map Runtime.id).toFinset := by
      rw [List.map_cons, List.toFinset_cons, Finset.erase_insert (by rwa [List.mem_toFinset])]
    have hmem : r.id ∈ ((r :: rs).map Runtime.id).toFinset := by simp
    obtain ⟨hacc₁, hagents⟩ := hacc.endAgent hmem hmem
    rw [hset] at hacc₁
    obtain ⟨hacc₂, hagents₂⟩ := ih hrs hacc₁
    exact ⟨hacc₂, hagents₂.trans hagents⟩

/-- Stopping all agents keeps the balance, and none is left. -/
theorem Balanced.endAgents {h : Host} (hb : h.Balanced) : h.endAgents.Balanced := by
  -- the table is cleared first, and the account is still about the agents that were in it
  have hcleared : ({ h with agents := [] } : Host).Accounts h.agentIds.toFinset
      h.agentIds.toFinset := hb.accounts.congr rfl rfl
  obtain ⟨hacc, hagents⟩ := hcleared.endAll hb.nodup
  exact .of_ids (agentIds_congr hagents) .nil hacc

theorem Balanced.stop {h : Host} (hb : h.Balanced) : h.stop.Balanced := by
  unfold Host.stop
  split
  · exact hb
  · have hended := (hb.undisturbed (undisturbed_stopDispatch h)).endAgents
    exact (hended.undisturbed (undisturbed_teardown _)).undisturbed ⟨rfl, rfl, rfl⟩

/-- A welcome keeps the balance, however often it lists an agent. -/
theorem Balanced.welcome {h : Host} (hb : h.Balanced) (plugins : List Plugin)
    (agents : List AgentModel) : (h.welcome plugins agents).2.Balanced := by
  -- an agent that is listed twice is live already the second time
  have hfold : ∀ (agents : List AgentModel) (h : Host), h.Balanced →
      (agents.foldl (fun h agent => (h.agentConnect agent).2) h).Balanced := by
    intro agents
    induction agents with
    | nil => exact fun _ hb => hb
    | cons agent agents ih => exact fun h hb => ih _ (hb.agentConnect agent)
  have hregistry : ({ h with registry := (h.registry.reconcile plugins).1 } : Host).Balanced :=
    hb.undisturbed ⟨rfl, rfl, rfl⟩
  exact hfold agents _ hregistry

theorem Balanced.handle {h : Host} (hb : h.Balanced) (m : Message) : (h.handle m).Balanced := by
  unfold Host.handle
  split
  · split
    · next host plugins agents _ =>
      split
      · exact hb.welcome plugins agents
      · exact hb
    · next agent _ => exact hb.agentConnect agent
    · next agentId _ => exact hb.agentDisconnect agentId
    · exact hb
  · exact hb

/-- **Every operation keeps the balance.** -/
theorem Balanced.perform {h : Host} (hb : h.Balanced) (op : Operation) :
    (h.perform op).Balanced := by
  cases op with
  | handle m => exact hb.handle m
  | welcome plugins agents => exact hb.welcome plugins agents
  | agentConnect agent => exact hb.agentConnect agent
  | agentDisconnect agentId => exact hb.agentDisconnect agentId
  | stop => exact hb.stop
  | connect admission w => exact hb.undisturbed (undisturbed_connect h admission w)
  | rewire bus => exact hb.undisturbed ⟨rfl, rfl, rfl⟩

/-! ## Runs -/

theorem Balanced.run {h : Host} (hb : h.Balanced) (ops : List Operation) :
    (ops.foldl Host.perform h).Balanced := by
  induction ops generalizing h with
  | nil => exact hb
  | cons op ops ih => exact ih (hb.perform op)

/-- The last event of an agent is that it has begun exactly when it is live. -/
theorem Balanced.mem_agentIds_iff {h : Host} (hb : h.Balanced) (id : String) :
    id ∈ h.agentIds ↔ ∃ name, (h.eventsOf id).getLast? = some (.agentConnected id name) := by
  have hlast := (hb.accounts.events id).eq_true_iff
  rw [decide_eq_true_iff, List.mem_toFinset] at hlast
  rw [hlast]
  constructor
  · intro hparts
    obtain ⟨other, name, hother⟩ := hparts
    have hmem := List.mem_of_getLast? hother
    obtain ⟨-, heq⟩ := List.mem_filter.mp hmem
    obtain rfl : other = id := of_decide_eq_true heq
    exact ⟨name, hother⟩
  · intro hparts
    obtain ⟨name, hname⟩ := hparts
    exact ⟨id, name, hname⟩

/-- **The lives of the agents.**  After any run of operations on a new host, with whatever factory:
the events of each agent begin and end it in turn, the agent is live exactly when it has begun last,
all agents made under its id were handed back but the one that is live, and none was ever handed
back that had not been made. -/
theorem agents_accounted_for {config : HostConfig} {factory : AgentFactory} {h : Host}
    (hcreate : create config factory = .ok h) (ops : List Operation) (id : String) :
    let h' := ops.foldl Host.perform h
    Alternates (decide (id ∈ h'.agentIds)) (h'.eventsOf id) ∧
    (id ∈ h'.agentIds ↔ ∃ name, (h'.eventsOf id).getLast? = some (.agentConnected id name)) ∧
    created id h'.calls = disposed id h'.calls + (if id ∈ h'.agentIds then 1 else 0) ∧
    Backed h'.calls := by
  intro h'
  have hb : h'.Balanced := (balanced_create hcreate).run ops
  have hevents := hb.accounts.events id
  have hcounts := hb.accounts.counts id
  simp only [List.mem_toFinset] at hevents hcounts
  exact ⟨hevents, hb.mem_agentIds_iff id, hcounts, hb.accounts.backed⟩

/-- An agent that fails to end and to be handed back, run twice, stopped and run again, beside
another one that fails to begin. -/
theorem agents_accounted_for_flaky :
    let config : HostConfig :=
      { discovery := { authorityUri := "http://authority" }, hostId := "host 1", hostSecret := "s" }
    let ops : List Operation :=
      [.agentConnect { id := "a", name := "disconnect+dispose" },
       .welcome [] [{ id := "a" }, { id := "b", name := "connect" },
         { id := "b", name := "create" }],
       .agentDisconnect "a", .agentConnect { id := "a" }, .stop]
    ∃ h, create config .flaky = .ok h ∧
      let h' := ops.foldl Host.perform h
      Alternates (decide ("a" ∈ h'.agentIds)) (h'.eventsOf "a") ∧
      ("a" ∈ h'.agentIds ↔
        ∃ name, (h'.eventsOf "a").getLast? = some (.agentConnected "a" name)) ∧
      created "a" h'.calls = disposed "a" h'.calls + (if "a" ∈ h'.agentIds then 1 else 0) ∧
      Backed h'.calls := by
  intro config ops
  -- the host itself is not computed; that it exists is enough
  have hok : (create config .flaky).isOk = true := by decide +kernel
  cases hcreate : create config .flaky with
  | error e =>
    rw [hcreate] at hok
    cases hok
  | ok h => exact ⟨h, rfl, agents_accounted_for hcreate ops "a"⟩

end Coordination.Host
