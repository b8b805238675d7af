import Coordination.Proofs.Host.Agents
import Coordination.Proofs.Host.Lifecycle
/-!
# Runs of a host

A run is a list of operations, one after another.  What others do to the bus in between is an
operation too; it cannot touch the table, which only the host and its agents write, and it cannot
bring back a connection.
-/

namespace Coordination.Host

/-- A new host has its topics and its factory, and otherwise nothing. -/
theorem create_eq_ok {config : HostConfig} {factory : AgentFactory} {h : Host}
    (hcreate : create config factory = .ok h) : ∃ discovery : Discovery,
      h = { id := config.hostId, name := config.hostName.getD config.hostId
            secret := config.hostSecret, discovery := discovery
            topics := ⟨discovery.id, config.hostId⟩, retryDelay := config.retryDelay
            factory := factory } := by
  obtain ⟨discovery, -, -, heq⟩ := exists_discovery_of_create hcreate
  exact ⟨discovery, heq⟩

/-! ## Who a host is -/

/-- Two states of one host: its id, whose host it is and who makes its agents. -/
structure SameSelf (h h' : Host) : Prop where
  id : h'.id = h.id
  topics : h'.topics = h.topics
  factory : h'.factory = h.factory

theorem SameSelf.trans {h h' h'' : Host} (hfirst : h.SameSelf h') (hsecond : h'.SameSelf h'') :
    h.SameSelf h'' :=
  ⟨hsecond.id.trans hfirst.id, hsecond.topics.trans hfirst.topics,
    hsecond.factory.trans hfirst.factory⟩

theorem Steady.sameSelf {h h' : Host} (hsteady : h.Steady h') : h.SameSelf h' :=
  ⟨hsteady.id, hsteady.topics, hsteady.factory⟩

theorem Relinked.sameSelf {h h' : Host} (hlinked : h.Relinked h') : h.SameSelf h' := by
  cases hlinked
  exact ⟨rfl, rfl, rfl⟩

theorem sameSelf_stop (h : Host) : h.SameSelf h.stop := by
  unfold stop
  split
  · exact ⟨rfl, rfl, rfl⟩
  · have hcleared : h.SameSelf { h.stopDispatch with agents := [] } :=
      h.relinked_stopDispatch.sameSelf.trans ⟨rfl, rfl, rfl⟩
    have hended : h.SameSelf h.stopDispatch.endAgents := by
      refine List.foldlRecOn (motive := h.SameSelf) h.stopDispatch.agents _ hcleared ?_
      exact fun h' hsame r _ => hsame.trans (h'.steady_endAgent r).sameSelf
    exact (hended.trans (relinked_teardown _).sameSelf).trans ⟨rfl, rfl, rfl⟩

theorem sameSelf_perform (h : Host) (op : Operation) : h.SameSelf (h.perform op) := by
  cases op with
  | handle m => exact (h.steady_handle m).sameSelf
  | welcome plugins agents => exact (h.steady_welcome plugins agents).sameSelf
  | agentConnect agent => exact (h.runs_agentConnect agent).steady.sameSelf
  | agentDisconnect agentId => exact (h.ends_agentDisconnect agentId).steady.sameSelf
  | stop => exact h.sameSelf_stop
  | connect admission w => exact (h.relinked_connect admission w).sameSelf
  | rewire bus => exact ⟨rfl, rfl, rfl⟩

/-! ## Runs -/

/-- Whether an operation can happen to a host. -/
def Operation.Fits (h : Host) : Operation → Prop
  | .rewire bus => h.bus.Drifts bus
  | _ => True

def Feasible (h : Host) : List Operation → Prop
  | [] => True
  | op :: ops => op.Fits h ∧ (h.perform op).Feasible ops

theorem run_induction {P : Host → Prop}
    (hstep : ∀ h op, op.Fits h → P h → P (h.perform op)) {ops : List Operation} {h : Host}
    (hfeasible : h.Feasible ops) (hP : P h) : P (ops.foldl Host.perform h) := by
  induction ops generalizing h with
  | nil => exact hP
  | cons op ops ih =>
    obtain ⟨hfits, hrest⟩ := hfeasible
    exact ih hrest (hstep h op hfits hP)

/-- A web in which the authority lets a host find its broker and gives it a token, for a number of
attempts. -/
def admittingWeb (attempts : Nat) : Web where
  gets := .replicate attempts { body := (Json.Value.ofMembers
    [("broker_uri", .string "b"), ("token_endpoint", .string "http://auth/token")]).render }
  posts := .replicate attempts
    { body := (Json.Value.ofMembers [("access_token", .string "t")]).render }

end Coordination.Host
