import Coordination.Proofs.Credential.Requests
/-!
# Runs of many calls

A run is followed from its beginning, one action after another.  What is to hold of each call of a
run is shown once for a new call and once for each of the ways in which an action concerns a call.
-/

namespace Coordination.Interleaving

variable {s s' t : Interleaving} {action : Action} {actions : List Action} {topics : Generator}
  {keys : KeyPair} {config : ClientConfig} {bus : Bus}

/-! ## Runs that grow at their end -/

theorem run_append (s : Interleaving) (before after : List Action) :
    s.run (before ++ after) = (s.run before).bind fun t => t.run after := by
  induction before generalizing s with
  | nil => rfl
  | cons action before ih =>
    show (s.act action).bind (fun t => t.run (before ++ after)) =
      ((s.act action).bind fun t => t.run before).bind fun t => t.run after
    rw [Option.bind_assoc]
    simp only [ih]

/-- A run is followed from its beginning, one action after another. -/
theorem run_induction {P : List Action → Interleaving → Prop} (nil : P [] s)
    (snoc : ∀ actions t action s', s.run actions = some t → P actions t →
      t.act action = some s' → P (actions ++ [action]) s')
    (h : s.run actions = some t) : P actions t := by
  induction actions using List.reverseRecOn generalizing t with
  | nil =>
    cases h
    exact nil
  | append_singleton actions action ih =>
    rw [run_append] at h
    obtain ⟨middle, hrun, hlast⟩ := Option.bind_eq_some_iff.mp h
    obtain ⟨last, hact, heq⟩ := Option.bind_eq_some_iff.mp hlast
    cases heq
    exact snoc actions middle action t hrun (ih hrun) hact

/-! ## What holds of every call -/

/-- What holds of a new call, and of a call after an action if it held before, holds of every call of
every run. -/
theorem Leads.forall_calls {P : Call → Prop} (h : (start topics keys config bus).Leads s)
    (new : ∀ id name, P { id, name })
    (moves : ∀ s s' action, (start topics keys config bus).Leads s → ∀ k ∈ s.client.calls,
      ∀ k', s.Moves s' action k k' → P k → P k') : ∀ k ∈ s.client.calls, P k := by
  induction h with
  | refl =>
    intro k hk
    exact absurd hk List.not_mem_nil
  | @tail s s' hleads hstep ih =>
    intro j hj
    obtain ⟨action, hact⟩ := hstep
    rcases (Leads.sound hleads).moves hact hj with ⟨name, -, rfl⟩ | ⟨k, hk, hmoves⟩
    · exact new _ name
    · exact moves s s' action hleads k hk j hmoves (ih k hk)

/-- Every call makes attempts that it may make, also when calls are given up. -/
theorem Leads.tries (h : (start topics keys config bus).Leads s) :
    ∀ k ∈ s.client.calls, k.Tries config.attempts := by
  refine h.forall_calls (fun _ _ => trivial) ?_
  intro s s' action hleads k _ k' hmoves htries
  cases hmoves with
  | steps act stride =>
    have hconfig : s.client.config = config := hleads.extends.config
    rw [← hconfig] at htries ⊢
    exact stride.tries htries
  | told => exact (k.give_account _ config.attempts).2.2.2 htries
  | stays => exact htries

end Coordination.Interleaving
