import Coordination.Proofs.Host.Runs
/-!
# What is left after a host was stopped

Stopping a host that is up, or that is about to come up, ends and hands back every live agent, once,
and leaves nothing running.  Stopping a host that is down does nothing at all.  A host is also down
after an attempt to connect again has failed; the agents that were live before are live then, and
stay so.
-/

namespace Coordination.Host

/-- Nothing of the host runs. -/
structure Idle (h : Host) : Prop where
  state : h.state.value = .disconnected
  agents : h.agentIds = []
  dispatching : h.dispatching = false
  filters : h.bus.filters = []

/-! ## Leaving the broker -/

theorem dispatching_stopDispatch (h : Host) : h.stopDispatch.dispatching = false := by
  unfold stopDispatch
  split
  · rfl
  · next hidle => rwa [Bool.not_eq_true] at hidle

theorem dispatching_teardown (h : Host) : h.teardown.dispatching = false :=
  h.dispatching_stopDispatch

theorem filters_teardown (h : Host) : h.teardown.bus.filters = [] :=
  Bus.filters_disconnect _

/-! ## Ending the agents -/

/-- What a call is about. -/
def callKey (c : AgentCall) : AgentStage × String := (c.stage, c.agentId)

/-- The calls by which agents end. -/
def endings (ids : List String) : List (AgentStage × String) :=
  ids.flatMap fun id => [(.disconnect, id), (.dispose, id)]

/-- An agent that ends is disconnected and then disposed of, each once. -/
theorem calls_endAgent (h : Host) (r : Runtime) : ∃ calls,
    (h.endAgent r).2.calls = h.calls ++ calls ∧ calls.map callKey = endings [r.id] := by
  obtain ⟨ended, hlogs₁⟩ := h.disconnectRuntime_logs r
  obtain ⟨name, disposed, hlogs₂⟩ := (h.disconnectRuntime r).disposeRuntime_logs r.id
  refine ⟨[⟨.disconnect, r.id, r.name, ended⟩, ⟨.dispose, r.id, name, disposed⟩], ?_, rfl⟩
  show ((h.disconnectRuntime r).disposeRuntime r.id).2.calls = _
  rw [hlogs₂.calls, hlogs₁.calls, List.append_assoc]
  rfl

/-- Agents that end one after another are each disconnected and disposed of once. -/
theorem calls_endAll (rs : List Runtime) (h : Host) : ∃ calls,
    (rs.foldl (fun h r => (h.endAgent r).2) h).calls = h.calls ++ calls ∧
      calls.map callKey = endings (rs.map Runtime.id) := by
  induction rs generalizing h with
  | nil => exact ⟨[], (List.append_nil _).symm, rfl⟩
  | cons r rs ih =>
    obtain ⟨first, hfirst, hfirstKeys⟩ := h.calls_endAgent r
    obtain ⟨rest, hrest, hrestKeys⟩ := ih (h.endAgent r).2
    refine ⟨first ++ rest, ?_, ?_⟩
    · show (rs.foldl _ (h.endAgent r).2).calls = _
      rw [hrest, hfirst, List.append_assoc]
    · rw [List.map_append, hfirstKeys, hrestKeys]
      rfl

theorem agents_endAgents (h : Host) : h.endAgents.agents = [] := by
  refine List.foldlRecOn (motive := fun h' : Host => h'.agents = []) h.agents _ rfl ?_
  intro h' hnone r _
  obtain ⟨_, hlogs₁⟩ := h'.disconnectRuntime_logs r
  obtain ⟨_, _, hlogs₂⟩ := (h'.disconnectRuntime r).disposeRuntime_logs r.id
  exact (hlogs₂.agents.trans hlogs₁.agents).trans hnone

/-! ## Stopping -/

/-- Stopping a host that is not down leaves nothing running. -/
theorem idle_stop {h : Host} (hup : h.state.value ≠ .disconnected) : h.stop.Idle := by
  unfold stop
  rw [if_neg hup]
  have hagents : h.stopDispatch.endAgents.teardown.agents = [] := by
    rw [(undisturbed_teardown _).agents]
    exact agents_endAgents _
  exact ⟨rfl, by rw [agentIds]; exact congrArg (List.map Runtime.id) hagents,
    dispatching_teardown _, filters_teardown _⟩

/-- It ends every live agent once. -/
theorem calls_stop {h : Host} (hup : h.state.value ≠ .disconnected) : ∃ calls,
    h.stop.calls = h.calls ++ calls ∧ calls.map callKey = endings h.agentIds := by
  have hsame := h.undisturbed_stopDispatch
  obtain ⟨calls, hcalls, hkeys⟩ :=
    calls_endAll h.stopDispatch.agents { h.stopDispatch with agents := [] }
  refine ⟨calls, ?_, ?_⟩
  · unfold stop
    rw [if_neg hup]
    show h.stopDispatch.endAgents.teardown.calls = _
    rw [(undisturbed_teardown _).calls, ← hsame.calls]
    exact hcalls
  · rw [hkeys, hsame.agents]
    rfl

theorem stop_of_disconnected {h : Host} (hdown : h.state.value = .disconnected) : h.stop = h := by
  unfold stop
  rw [if_pos hdown]

/-! ## Runs -/

/-- A host that is down serves its inbox no more. -/
def Grounded (h : Host) : Prop := h.state.value = .disconnected → h.dispatching = false

theorem Grounded.steady {h h' : Host} (hg : h.Grounded) (hsteady : h.Steady h') :
    h'.Grounded := by
  intro hdown
  rw [hsteady.dispatching]
  exact hg (by rw [← hsteady.state]; exact hdown)

/-- An attempt to connect ends with a host that is up, or one that has left the broker. -/
theorem Grounded.connect {h : Host} (hg : h.Grounded) (admission : Admission) (w : Web) :
    (h.connect admission w).2.1.Grounded := by
  unfold Host.connect
  split
  · exact hg
  · split
    · exact fun hdown => nomatch hdown
    · exact fun _ => dispatching_teardown _

theorem Grounded.perform {h : Host} (hg : h.Grounded) (op : Operation) :
    (h.perform op).Grounded := by
  cases op with
  | handle m => exact hg.steady (h.steady_handle m)
  | welcome plugins agents => exact hg.steady (h.steady_welcome plugins agents)
  | agentConnect agent => exact hg.steady (h.runs_agentConnect agent).steady
  | agentDisconnect agentId => exact hg.steady (h.ends_agentDisconnect agentId).steady
  | stop =>
    intro _
    by_cases hdown : h.state.value = .disconnected
    · show h.stop.dispatching = false
      rw [stop_of_disconnected hdown]
      exact hg hdown
    · exact (idle_stop hdown).dispatching
  | connect admission w => exact hg.connect admission w
  | rewire bus => exact hg.steady ⟨rfl, rfl, rfl, rfl, rfl⟩

theorem grounded_create {config : HostConfig} {factory : AgentFactory} {h : Host}
    (hcreate : create config factory = .ok h) : h.Grounded := by
  obtain ⟨discovery, rfl⟩ := create_eq_ok hcreate
  exact fun _ => rfl

/-- **What stopping leaves.**  After any run of a new host: if it is not down, stopping it leaves
nothing running, and every agent that was live is disconnected and disposed of exactly once.  If it
is down, stopping it changes nothing, so that something is left just if an agent is live or a filter
is in the table. -/
theorem stop_after_run {config : HostConfig} {factory : AgentFactory} {h : Host}
    (hcreate : create config factory = .ok h) {ops : List Operation}
    (hfeasible : h.Feasible ops) :
    let h' := ops.foldl Host.perform h
    (h'.state.value ≠ .disconnected → h'.stop.Idle ∧ h'.agentIds.Nodup ∧
      ∃ calls, h'.stop.calls = h'.calls ++ calls ∧ calls.map callKey = endings h'.agentIds) ∧
    (h'.state.value = .disconnected → h'.stop = h' ∧
      (h'.stop.Idle ↔ h'.agentIds = [] ∧ h'.bus.filters = [])) := by
  intro h'
  have hgrounded : h'.Grounded :=
    run_induction (fun _ op _ hg => hg.perform op) hfeasible (grounded_create hcreate)
  have hbalanced : h'.Balanced := (balanced_create hcreate).run ops
  refine ⟨fun hup => ⟨idle_stop hup, hbalanced.nodup, calls_stop hup⟩, fun hdown => ?_⟩
  have hstop := stop_of_disconnected hdown
  refine ⟨hstop, ?_⟩
  rw [hstop]
  constructor
  · intro hidle
    exact ⟨hidle.agents, hidle.filters⟩
  · rintro ⟨hagents, hfilters⟩
    exact ⟨hdown, hagents, hgrounded hdown, hfilters⟩

/-- A host with two live agents. -/
theorem stop_after_run_two_agents :
    let config : HostConfig :=
      { discovery := { authorityUri := "http://auth" }, hostId := "h1", hostSecret := "s" }
    let ops : List Operation :=
      [.connect (fun _ _ => .ok ()) (admittingWeb 1), .agentConnect { id := "a" },
        .agentConnect { id := "b" }]
    ∃ h, create config .failingDispose = .ok h ∧ h.Feasible ops ∧
      let h' := ops.foldl Host.perform h
      h'.state.value ≠ .disconnected ∧ h'.agentIds = ["a", "b"] ∧ h'.stop.Idle ∧
        ∃ calls, h'.stop.calls = h'.calls ++ calls ∧ calls.map callKey = endings ["a", "b"] := by
  intro config ops
  have hrun : (match create config .failingDispose with
      | .ok h => decide ((ops.foldl Host.perform h).state.value ≠ .disconnected ∧
          (ops.foldl Host.perform h).agentIds = ["a", "b"])
      | .error _ => false) = true := by decide +kernel
  cases hcreate : create config .failingDispose with
  | error e =>
    rw [hcreate] at hrun
    cases hrun
  | ok h =>
    rw [hcreate] at hrun
    obtain ⟨hup, hids⟩ := of_decide_eq_true hrun
    have hfeasible : h.Feasible ops := ⟨trivial, trivial, trivial, trivial⟩
    -- the factory says that it cannot dispose, and the agents end all the same
    obtain ⟨hidle, -, hcalls⟩ := (stop_after_run hcreate hfeasible).1 hup
    rw [hids] at hcalls
    exact ⟨h, rfl, hfeasible, hup, hids, hidle, hcalls⟩

/-- The connection is lost and the next attempt fails: the agent that was live stays live when the
host is stopped. -/
theorem stop_leaves_agent :
    let config : HostConfig :=
      { discovery := { authorityUri := "http://auth" }, hostId := "h1", hostSecret := "s" }
    let up : List Operation :=
      [.connect (fun _ _ => .ok ()) (admittingWeb 1), .agentConnect { id := "a" }]
    ∃ h, create config .recording = .ok h ∧
      let ops := up ++
        [.rewire (up.foldl Host.perform h).bus.drop, .connect (fun _ _ => .ok ()) {}]
      h.Feasible ops ∧ (ops.foldl Host.perform h).stop.agentIds = ["a"] ∧
        ¬ (ops.foldl Host.perform h).stop.Idle := by
  intro config up
  -- the attempt after the loss fails, which leaves the host down with its agent
  have hrun : (match create config .recording with
      | .ok h =>
        let ops := up ++
          [.rewire (up.foldl Host.perform h).bus.drop, .connect (fun _ _ => .ok ()) {}]
        decide ((ops.foldl Host.perform h).stop.agentIds = ["a"])
      | .error _ => false) = true := by decide +kernel
  cases hcreate : create config .recording with
  | error e =>
    rw [hcreate] at hrun
    cases hrun
  | ok h =>
    rw [hcreate] at hrun
    have hids := of_decide_eq_true hrun
    refine ⟨h, rfl, ⟨trivial, trivial, Bus.drifts_drop _, trivial, trivial⟩, hids, ?_⟩
    intro hidle
    have hnone := hidle.agents
    rw [hids] at hnone
    cases hnone

end Coordination.Host
