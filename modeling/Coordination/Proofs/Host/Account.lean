import Coordination.Host.Basic
import Mathlib.Data.Finset.Basic
/-!
# The account of a host

A host tells of its agents by events, and its factory sees the calls made for them.  The account
relates both to two sets of ids: the agents that the factory has made and not taken back, which the
host holds, and the agents that are live.  Every step of the host moves one id in or out of one of
the sets and adds the event or the call that says so.
-/

namespace Coordination

/-! ## Events of one agent -/

namespace HostEvent

/-- The events of one agent, which begins and ends in turn, beginning first.  The flag tells whether
it has begun and not ended. -/
inductive Alternates : Bool → List HostEvent → Prop where
  | nil : Alternates false []
  | connected {es : List HostEvent} {id name : String} : Alternates false es →
      Alternates true (es ++ [.agentConnected id name])
  | disconnected {es : List HostEvent} {id : String} : Alternates true es →
      Alternates false (es ++ [.agentDisconnected id])

/-- What was told last shows whether the agent is live. -/
theorem Alternates.eq_true_iff {live : Bool} {es : List HostEvent} (h : Alternates live es) :
    live = true ↔ ∃ id name, es.getLast? = some (.agentConnected id name) := by
  cases h with
  | nil => simp
  | connected _ => simp
  | disconnected _ => simp

end HostEvent

/-! ## Calls for one agent -/

namespace AgentCall

/-- How many times an agent was made under an id. -/
def created (id : String) (calls : List AgentCall) : Nat :=
  calls.countP fun c => c.stage = .create && c.succeeded && c.agentId == id

/-- How many times an agent was handed back under an id, with or without success. -/
def disposed (id : String) (calls : List AgentCall) : Nat :=
  calls.countP fun c => c.stage = .dispose && c.agentId == id

/-- Whoever is handed back was made before and not handed back since. -/
def Backed (calls : List AgentCall) : Prop :=
  ∀ before c after, calls = before ++ c :: after → c.stage = .dispose →
    disposed c.agentId before < created c.agentId before

theorem created_concat (id : String) (calls : List AgentCall) (c : AgentCall) :
    created id (calls ++ [c]) =
      created id calls + if c.stage = .create ∧ c.succeeded ∧ c.agentId = id then 1 else 0 := by
  simp [created, List.countP_append, List.countP_cons, and_assoc]

theorem disposed_concat (id : String) (calls : List AgentCall) (c : AgentCall) :
    disposed id (calls ++ [c]) =
      disposed id calls + if c.stage = .dispose ∧ c.agentId = id then 1 else 0 := by
  simp [disposed, List.countP_append, List.countP_cons]

/-- One more call keeps the order of making and handing back if it has this order itself. -/
theorem Backed.concat {calls : List AgentCall} (h : Backed calls) {c : AgentCall}
    (hc : c.stage = .dispose → disposed c.agentId calls < created c.agentId calls) :
    Backed (calls ++ [c]) := by
  intro before d after heq hd
  rcases List.eq_nil_or_concat after with rfl | ⟨after, e, rfl⟩
  · obtain ⟨rfl, hcd⟩ := List.append_inj' heq rfl
    cases hcd
    exact hc hd
  · rw [List.concat_eq_append, ← List.cons_append, ← List.append_assoc] at heq
    obtain ⟨hcalls, -⟩ := List.append_inj' heq rfl
    exact h before d after hcalls hd

end AgentCall

namespace Host

open AgentCall (created disposed Backed created_concat disposed_concat)
open HostEvent (Alternates)

def eventsOf (h : Host) (id : String) : List HostEvent :=
  h.events.filter fun e => e.agentId = id

/-! ## The account -/

/-- The events and calls of a host agree with the agents it holds and the agents that are live. -/
structure Accounts (h : Host) (held live : Finset String) : Prop where
  events : ∀ id, Alternates (decide (id ∈ live)) (h.eventsOf id)
  counts : ∀ id, created id h.calls = disposed id h.calls + if id ∈ held then 1 else 0
  backed : Backed h.calls

/-- A step that makes one call and changes neither the live agents nor the events. -/
structure Logs (h h' : Host) (c : AgentCall) : Prop where
  agents : h'.agents = h.agents
  events : h'.events = h.events
  calls : h'.calls = h.calls ++ [c]

theorem logs_log (h : Host) (stage : AgentStage) (agentId name : String) (succeeded : Bool) :
    h.Logs (h.log stage agentId name succeeded) ⟨stage, agentId, name, succeeded⟩ :=
  ⟨rfl, rfl, rfl⟩

section Steps

variable {h h' : Host} {held live : Finset String}

/-- A call that neither makes an agent nor hands one back moves no id. -/
theorem Accounts.quiet (hacc : h.Accounts held live) {c : AgentCall} (hlogs : h.Logs h' c)
    (hcreate : c.stage = .create → c.succeeded = false) (hdispose : c.stage ≠ .dispose) :
    h'.Accounts held live where
  events id := by
    rw [eventsOf, hlogs.events]
    exact hacc.events id
  counts id := by
    -- the call is neither a creation that succeeded nor a disposal, so that both counts stay
    have hmade : ¬ (c.stage = .create ∧ c.succeeded ∧ c.agentId = id) := by
      intro hparts
      obtain ⟨hstage, hsucceeded, -⟩ := hparts
      rw [hcreate hstage] at hsucceeded
      cases hsucceeded
    have hback : ¬ (c.stage = .dispose ∧ c.agentId = id) := fun hd => hdispose hd.1
    rw [hlogs.calls, created_concat, disposed_concat, if_neg hmade, if_neg hback]
    exact hacc.counts id
  backed := by
    rw [hlogs.calls]
    exact hacc.backed.concat fun hd => absurd hd hdispose

theorem Accounts.create (hacc : h.Accounts held live) {id name : String} (hid : id ∉ held)
    (hlogs : h.Logs h' ⟨.create, id, name, true⟩) : h'.Accounts (insert id held) live where
  events other := by
    rw [eventsOf, hlogs.events]
    exact hacc.events other
  counts other := by
    have hcounts := hacc.counts other
    rw [hlogs.calls, created_concat, disposed_concat, hcounts]
    by_cases hother : other = id
    · subst hother
      simp [hid]
    · simp [hother, Ne.symm hother]
  backed := by
    rw [hlogs.calls]
    exact hacc.backed.concat fun hd => nomatch hd

/-- An agent that was handed back is held no more. -/
theorem Accounts.dispose (hacc : h.Accounts held live) {id name : String} {succeeded : Bool}
    (hid : id ∈ held) (hlogs : h.Logs h' ⟨.dispose, id, name, succeeded⟩) :
    h'.Accounts (held.erase id) live where
  events other := by
    rw [eventsOf, hlogs.events]
    exact hacc.events other
  counts other := by
    have hcounts := hacc.counts other
    rw [hlogs.calls, created_concat, disposed_concat, hcounts]
    by_cases hother : other = id
    · subst hother
      simp [hid]
    · simp [hother, Ne.symm hother]
  backed := by
    rw [hlogs.calls]
    -- the agent is held, so that one more of it was created than disposed of
    refine hacc.backed.concat fun _ => ?_
    have hcounts := hacc.counts id
    rw [if_pos hid] at hcounts
    show disposed id h.calls < created id h.calls
    omega

theorem Accounts.tellConnected (hacc : h.Accounts held live) {id : String} (name : String)
    (hid : id ∉ live) : (h.tell (.agentConnected id name)).Accounts held (insert id live) where
  events other := by
    have hevents := hacc.events other
    unfold eventsOf at hevents ⊢
    rw [tell, List.filter_append]
    by_cases hother : other = id
    · subst hother
      rw [decide_eq_false hid] at hevents
      rw [decide_eq_true (Finset.mem_insert_self other live)]
      have hlonger : Alternates true ((h.events.filter fun e => e.agentId = other) ++
          [.agentConnected other name]) := hevents.connected
      simpa [HostEvent.agentId] using hlonger
    · simpa [HostEvent.agentId, hother, Ne.symm hother] using hevents
  counts := hacc.counts
  backed := hacc.backed

theorem Accounts.tellDisconnected (hacc : h.Accounts held live) {id : String} (hid : id ∈ live) :
    (h.tell (.agentDisconnected id)).Accounts held (live.erase id) where
  events other := by
    have hevents := hacc.events other
    unfold eventsOf at hevents ⊢
    rw [tell, List.filter_append]
    by_cases hother : other = id
    · subst hother
      rw [decide_eq_true hid] at hevents
      rw [decide_eq_false (Finset.notMem_erase other live)]
      have hlonger : Alternates false ((h.events.filter fun e => e.agentId = other) ++
          [.agentDisconnected other]) := hevents.disconnected
      simpa [HostEvent.agentId] using hlonger
    · simpa [HostEvent.agentId, hother, Ne.symm hother] using hevents
  counts := hacc.counts
  backed := hacc.backed

end Steps

/-! ## Calls of the factory -/

/-- The factory makes an agent of the id it was asked for, or refuses. -/
theorem createRuntime_cases (h : Host) (agent : AgentModel) :
    (∃ r h', h.createRuntime agent = (.ok r, h') ∧ r.id = agent.id ∧
      h.Logs h' ⟨.create, agent.id, agent.name, true⟩) ∨
    (∃ fault h', h.createRuntime agent = (.error fault, h') ∧
      h.Logs h' ⟨.create, agent.id, agent.name, false⟩) := by
  -- whichever kind of factory makes it, the runtime has the id of its agent
  have hid : ∀ r, h.make agent = .ok r → r.id = agent.id := by
    intro r hr
    unfold make at hr
    split at hr
    · cases hr
    · split at hr
      · cases hr
        rfl
      · split at hr
        · cases hr
        · cases hr
          rfl
  unfold createRuntime
  cases hmake : h.make agent with
  | error fault => exact .inr ⟨fault, _, rfl, logs_log _ _ _ _ _⟩
  | ok r => exact .inl ⟨r, _, rfl, hid r hmake, logs_log _ _ _ _ _⟩

/-- An agent begins under its own id, or fails to. -/
theorem connectRuntime_cases (h : Host) (r : Runtime) :
    (∃ r' h', h.connectRuntime r = (.ok r', h') ∧ r'.id = r.id ∧
      h.Logs h' ⟨.connect, r.id, r.name, true⟩) ∨
    (∃ fault h', h.connectRuntime r = (.error fault, h') ∧
      h.Logs h' ⟨.connect, r.id, r.name, false⟩) := by
  unfold connectRuntime
  split
  · exact .inr ⟨_, _, rfl, ⟨rfl, rfl, rfl⟩⟩
  · split
    · exact .inl ⟨_, _, rfl, rfl, ⟨rfl, rfl, rfl⟩⟩
    · split
      · exact .inl ⟨_, _, rfl, rfl, ⟨rfl, rfl, rfl⟩⟩
      · exact .inr ⟨_, _, rfl, ⟨rfl, rfl, rfl⟩⟩

/-- An agent ends; whether it fails to makes no difference. -/
theorem disconnectRuntime_logs (h : Host) (r : Runtime) :
    ∃ succeeded, h.Logs (h.disconnectRuntime r) ⟨.disconnect, r.id, r.name, succeeded⟩ := by
  unfold disconnectRuntime
  split
  · exact ⟨false, rfl, rfl, rfl⟩
  · split
    · exact ⟨true, rfl, rfl, rfl⟩
    · exact ⟨true, rfl, rfl, rfl⟩

/-- An agent is handed back; whether the factory fails makes no difference. -/
theorem disposeRuntime_logs (h : Host) (id : String) :
    ∃ name succeeded, h.Logs (h.disposeRuntime id).2 ⟨.dispose, id, name, succeeded⟩ := by
  simp only [disposeRuntime]
  split
  · exact ⟨_, false, rfl, rfl, rfl⟩
  · exact ⟨_, true, rfl, rfl, rfl⟩

end Host

end Coordination
