import Coordination.Proofs.Authority.Changes
import Mathlib.Logic.Relation
/-!
# Agreement of a host with its roster

What a host is told to do is on its way while the records change again.  The live agents agree with
the roster in the sense that they will, once all that is on its way was done: nobody runs then who
is not on the roster, and everybody on the roster runs, provided that a welcome comes first.  This
module states the agreement for one host by itself, as a relation between the records, the
instructions on their way and the live agents.
-/

namespace Coordination

open Instruction (applyAll applyAll_append applyAll_mono applyAll_union)

namespace Instruction

/-- From any welcome on, the instructions have some agents run, whoever is live before. -/
def Primes (agents : Set String) : List Instruction → Prop
  | [] => True
  | i :: is => (∀ ids, i = .welcome ids → agents ⊆ applyAll (i :: is) ∅) ∧ Primes agents is

variable {agents agents' : Set String} {is js : List Instruction}

/-- Where nobody is welcomed nothing is promised. -/
theorem Primes.of_not_welcome (h : ∀ i ∈ is, ∀ ids, i ≠ .welcome ids) : Primes agents is := by
  induction is with
  | nil => trivial
  | cons i is ih =>
    obtain ⟨hi, his⟩ := List.forall_mem_cons.mp h
    exact ⟨fun ids heq => absurd heq (hi ids), ih his⟩

/-- More instructions keep a promise if they turn it into the new one. -/
theorem Primes.append (his : Primes agents is)
    (hturn : ∀ live, agents ⊆ live → agents' ⊆ applyAll js live) (hjs : Primes agents' js) :
    Primes agents' (is ++ js) := by
  induction is with
  | nil => exact hjs
  | cons i is ih =>
    obtain ⟨hfirst, hrest⟩ := his
    refine ⟨fun ids heq => ?_, ih hrest⟩
    show agents' ⊆ applyAll (i :: is ++ js) ∅
    rw [applyAll_append]
    exact hturn _ (hfirst ids heq)

/-- A welcome in between keeps a promise if it keeps it by itself. -/
theorem Primes.insert {ids : List String} (h : Primes agents (is ++ js))
    (hwelcome : agents ⊆ applyAll (welcome ids :: js) ∅) :
    Primes agents (is ++ welcome ids :: js) := by
  induction is with
  | nil => exact ⟨fun _ _ => hwelcome, h⟩
  | cons i is ih =>
    obtain ⟨hfirst, hrest⟩ := h
    refine ⟨fun ids' heq => ?_, ih hrest⟩
    -- the more are welcome, the more run after all
    have hmore : applyAll (i :: is ++ js) ∅ ⊆ applyAll (i :: is ++ welcome ids :: js) ∅ := by
      rw [applyAll_append, applyAll_append]
      exact applyAll_mono js Set.subset_union_left
    exact (hfirst ids' heq).trans hmore

end Instruction

/-! ## Changes and rosters -/

namespace Change

/-- A change that does not take an agent from a host without a word to this host: while an agent is
on the roster of the host, the authority is not told of it with another one, and if it is told of a
new agent, then of one that is enabled. -/
def Spares (r : Records) (hostId : String) : Change → Prop
  | create agent =>
    agent.id ∈ roster r.agents hostId → agent.isEnabled = true ∧ agent.hostId = some hostId
  | update agent | retire agent | remove agent =>
    agent.id ∈ roster r.agents hostId → agent.hostId = some hostId

/-- A change that does not say of an agent that it was deleted while its record says that it is to
run on the host. -/
def Owns (hostId : String) : Change → Prop
  | retire agent => ¬ (agent.isEnabled = true ∧ agent.hostId = some hostId)
  | _ => True

variable {r : Records} {hostId : String} {c : Change} {live : Set String}

/-- Whether the agent is on the roster of the host once the change is recorded. -/
def Places (hostId : String) : Change → Prop
  | create agent | update agent | retire agent =>
    agent.isEnabled = true ∧ agent.hostId = some hostId
  | remove _ => False

/-- A change puts its agent on the roster or takes it off, and leaves the others alone. -/
theorem mem_roster_record (h : (AgentModel.ids r.agents).Nodup) {id : String} :
    id ∈ roster (c.record r).agents hostId ↔
      id = c.agent.id ∧ c.Places hostId ∨ id ≠ c.agent.id ∧ id ∈ roster r.agents hostId := by
  cases c with
  | remove m =>
    exact Records.mem_roster_removed.trans ⟨.inr, fun hid => hid.resolve_left fun hown => hown.2⟩
  | _ m => exact Records.mem_roster_putAgent h

/-- A host is told to run the agent or to stop it. -/
theorem eq_of_mem_instructions {i : Instruction} (hi : i ∈ c.instructions hostId) :
    i = .start c.agent.id ∨ i = .stop c.agent.id := by
  -- an update stops the agent first and may start it again
  cases c with
  | create m =>
    simp only [instructions] at hi
    split at hi
    · exact .inl (List.mem_singleton.mp hi)
    · cases hi
  | update m =>
    simp only [instructions] at hi
    split at hi
    · rcases List.mem_cons.mp hi with hstop | hi
      · exact .inr hstop
      · split at hi
        · exact .inl (List.mem_singleton.mp hi)
        · cases hi
    · cases hi
  | _ m =>
    simp only [instructions] at hi
    split at hi
    · exact .inr (List.mem_singleton.mp hi)
    · cases hi

/-- No change welcomes a host. -/
theorem not_welcome_of_mem_instructions :
    ∀ i ∈ c.instructions hostId, ∀ ids, i ≠ .welcome ids := by
  intro i hi ids heq
  subst heq
  rcases eq_of_mem_instructions hi with h | h <;> cases h

/-- A change has nobody run but the agent that it is about. -/
theorem id_of_mem_started {i : Instruction} (hi : i ∈ c.instructions hostId) {id : String}
    (hid : id ∈ i.started) : id = c.agent.id := by
  rcases eq_of_mem_instructions hi with rfl | rfl
  · exact List.mem_singleton.mp hid
  · cases hid

/-- What a host is told of a change leaves all agents but one alone. -/
theorem mem_applyAll_instructions {id : String} (hne : id ≠ c.agent.id) :
    id ∈ applyAll (c.instructions hostId) live ↔ id ∈ live := by
  have hall : ∀ i ∈ c.instructions hostId, ∀ live : Set String, id ∈ i.apply live ↔ id ∈ live := by
    intro i hi live
    rcases eq_of_mem_instructions hi with rfl | rfl
    · exact Set.mem_insert_iff.trans (or_iff_right hne)
    · exact (Set.mem_sdiff_singleton).trans (and_iff_left hne)
  revert hall
  induction c.instructions hostId generalizing live with
  | nil => exact fun _ => Iff.rfl
  | cons i is ih =>
    intro hall
    obtain ⟨hi, his⟩ := List.forall_mem_cons.mp hall
    exact (ih his).trans (hi live)

/-- An agent that runs in the end, though the host was told of the change, is on the roster. -/
theorem Spares.places (hc : c.Spares r hostId) (hlive : live ⊆ roster r.agents hostId)
    (hid : c.agent.id ∈ applyAll (c.instructions hostId) live) : c.Places hostId := by
  cases c with
  | create m =>
    simp only [instructions] at hid
    split at hid
    · next hboth => exact hboth
    · exact hc (hlive hid)
  | update m =>
    simp only [instructions] at hid
    split at hid
    · next hhost =>
      split at hid
      · next henabled => exact ⟨henabled, hhost⟩
      · exact absurd rfl hid.2
    · next hother => exact absurd (hc (hlive hid)) hother
  | _ m =>
    -- whoever was deleted was stopped, or never was on the roster
    simp only [instructions] at hid
    split at hid
    · exact absurd rfl hid.2
    · next hother => exact absurd (hc (hlive hid)) hother

/-- An agent that the change puts on the roster runs in the end. -/
theorem Owns.mem_applyAll (hc : c.Owns hostId) (hplaces : c.Places hostId) :
    c.agent.id ∈ applyAll (c.instructions hostId) live := by
  cases c with
  | create m =>
    have hboth : m.isEnabled = true ∧ m.hostId = some hostId := hplaces
    simp only [instructions]
    rw [if_pos hboth]
    exact Set.mem_insert _ _
  | update m =>
    obtain ⟨henabled, hhost⟩ := hplaces
    simp only [instructions]
    rw [if_pos hhost, if_pos henabled]
    exact Set.mem_insert _ _
  | retire m => exact absurd hplaces hc
  | remove m => exact hplaces.elim

/-- If nobody else runs than the roster says, then so after a change that spares the host and what
the host is told of it. -/
theorem Spares.applyAll_subset (hc : c.Spares r hostId) (h : (AgentModel.ids r.agents).Nodup)
    (hlive : live ⊆ roster r.agents hostId) :
    applyAll (c.instructions hostId) live ⊆ roster (c.record r).agents hostId := by
  intro id hid
  rw [mem_roster_record h]
  by_cases heq : id = c.agent.id
  · subst heq
    exact .inl ⟨rfl, hc.places hlive hid⟩
  · exact .inr ⟨heq, hlive ((mem_applyAll_instructions heq).mp hid)⟩

/-- If everybody runs whom the roster names, then so after a change and what the host is told of
it. -/
theorem Owns.subset_applyAll (hc : c.Owns hostId) (h : (AgentModel.ids r.agents).Nodup)
    (hlive : roster r.agents hostId ⊆ live) :
    roster (c.record r).agents hostId ⊆ applyAll (c.instructions hostId) live := by
  intro id hid
  rw [mem_roster_record h] at hid
  rcases hid with ⟨rfl, hplaces⟩ | ⟨hne, hold⟩
  · exact hc.mem_applyAll hplaces
  · exact (mem_applyAll_instructions hne).mpr (hlive hold)

/-- Once a change is recorded, the roster says of its agent what the change says. -/
theorem Recorded.mem_roster_iff (hc : c.Recorded r) (h : (AgentModel.ids r.agents).Nodup) :
    c.agent.id ∈ roster r.agents hostId ↔ c.Places hostId := by
  cases c with
  | remove m => exact iff_of_false (Records.not_mem_roster_of_agent? hc) id
  | _ m => exact Records.mem_roster_of_agent? h hc

/-- A change that is recorded already spares every host. -/
theorem Recorded.spares (hc : c.Recorded r) (h : (AgentModel.ids r.agents).Nodup) :
    c.Spares r hostId := by
  have hplaces : c.agent.id ∈ roster r.agents hostId → c.Places hostId := (hc.mem_roster_iff h).mp
  cases c with
  | create m => exact hplaces
  | remove m => exact fun hon => (hplaces hon).elim
  | _ m => exact fun hon => (hplaces hon).2

/-- To record a change again does nothing to the rosters. -/
theorem Recorded.roster_record (hc : c.Recorded r) (h : (AgentModel.ids r.agents).Nodup) :
    roster (c.record r).agents hostId = roster r.agents hostId := by
  ext id
  rw [mem_roster_record h]
  by_cases heq : id = c.agent.id
  · subst heq
    rw [hc.mem_roster_iff h]
    simp
  · simp [heq]

/-- Once a change is recorded, what a host is told of it adds nobody to the roster. -/
theorem Recorded.applyAll_roster_subset (hc : c.Recorded r)
    (h : (AgentModel.ids r.agents).Nodup) :
    applyAll (c.instructions hostId) (roster r.agents hostId) ⊆ roster r.agents hostId := by
  have hspares : c.Spares r hostId := hc.spares h
  have hafter := hspares.applyAll_subset h Set.Subset.rfl
  rwa [hc.roster_record h] at hafter

/-- Once a change is recorded, what a host is told of it takes nobody on the roster away. -/
theorem Owns.roster_subset_applyAll (hc : c.Owns hostId) (hrecorded : c.Recorded r)
    (h : (AgentModel.ids r.agents).Nodup) :
    roster r.agents hostId ⊆ applyAll (c.instructions hostId) (roster r.agents hostId) := by
  have hafter := hc.subset_applyAll h Set.Subset.rfl
  rwa [hrecorded.roster_record h] at hafter

end Change

/-! ## One host -/

/-- What there is to say of one host. -/
structure View where
  records : Records
  /-- Whether the host listens. -/
  listens : Bool
  /-- What the host is still to do, the oldest first. -/
  coming : List Instruction
  live : Set String

namespace View

/-- What may happen to a host and its roster, where `p` says which changes there are. -/
inductive Moves (p : Records → Change → Prop) (hostId : String) : View → View → Prop where
  /-- Nothing happens that concerns the host. -/
  | still (v : View) : Moves p hostId v v
  /-- The host listens from now on. -/
  | heard {r : Records} {is : List Instruction} {live : Set String} :
      Moves p hostId ⟨r, false, is, live⟩ ⟨r, true, is, live⟩
  /-- The records change, and the host is to be told. -/
  | changed {r : Records} {listens : Bool} {is : List Instruction} {live : Set String}
      {c : Change} : (AgentModel.ids r.agents).Nodup → p r c →
      Moves p hostId ⟨r, listens, is, live⟩
        ⟨c.record r, listens, is ++ c.instructions hostId, live⟩
  /-- The authority handles a message and may welcome the host, while a change may be recorded of
  which the host was not told yet. -/
  | answered {r r' : Records} {listens : Bool} {is sent due : List Instruction}
      {live : Set String} : (AgentModel.ids r.agents).Nodup → r'.agents = r.agents →
      (sent = [] ∨ ∃ ids, sent = [.welcome ids] ∧ ∀ id, id ∈ ids ↔ id ∈ roster r.agents hostId) →
      (due = [] ∨ ∃ c r₀, p r₀ c ∧ c.Recorded r ∧ due = c.instructions hostId) →
      Moves p hostId ⟨r, listens, is ++ due, live⟩ ⟨r', listens, is ++ sent ++ due, live⟩
  /-- A message is lost, as long as the host does not listen; no agent is live then. -/
  | lost {r : Records} {i : Instruction} {is : List Instruction} :
      Moves p hostId ⟨r, false, i :: is, ∅⟩ ⟨r, false, is, ∅⟩
  /-- The host follows an instruction. -/
  | followed {r : Records} {listens : Bool} {i : Instruction} {is : List Instruction}
      {live : Set String} :
      Moves p hostId ⟨r, listens, i :: is, live⟩ ⟨r, listens, is, i.apply live⟩

variable {p : Records → Change → Prop} {hostId : String} {v v' : View}

/-- Nobody will run but those on the roster. -/
def Sound (hostId : String) (v : View) : Prop :=
  applyAll v.coming v.live ⊆ roster v.records.agents hostId

/-- Everybody on the roster will run. -/
def Complete (hostId : String) (v : View) : Prop :=
  roster v.records.agents hostId ⊆ applyAll v.coming v.live

/-- Everybody on the roster will run after any welcome that is on its way. -/
def Primed (hostId : String) (v : View) : Prop :=
  Instruction.Primes (roster v.records.agents hostId) v.coming

/-- Changes that spare the host keep strangers from running on it. -/
theorem Sound.moves (hv : v.Sound hostId)
    (hp : ∀ r c, (AgentModel.ids r.agents).Nodup → p r c → c.Spares r hostId)
    (hmoves : Moves p hostId v v') : v'.Sound hostId := by
  unfold Sound at hv ⊢
  cases hmoves with
  | still => exact hv
  | heard => exact hv
  | changed hnodup hc =>
    dsimp only
    rw [applyAll_append]
    exact (hp _ _ hnodup hc).applyAll_subset hnodup hv
  | @answered r _ _ is _ due _ hnodup hagents hsent hdue =>
    dsimp only at hv ⊢
    rw [hagents]
    rcases hsent with rfl | ⟨ids, rfl, hids⟩
    · rwa [List.append_nil]
    · -- whoever is welcome is on the roster, and the change that is due leaves it at that
      have hwelcome : applyAll due {id | id ∈ ids} ⊆ roster r.agents hostId := by
        rw [show {id | id ∈ ids} = roster r.agents hostId from Set.ext hids]
        rcases hdue with rfl | ⟨c, _, -, hc, rfl⟩
        · exact Set.Subset.rfl
        · exact hc.applyAll_roster_subset hnodup
      rw [applyAll_append] at hv
      rw [applyAll_append, applyAll_append]
      show applyAll due (applyAll is _ ∪ {id | id ∈ ids}) ⊆ _
      rw [applyAll_union]
      exact Set.union_subset hv hwelcome
  | @lost r i is =>
    -- without the lost message less runs, for all others do as much with fewer live agents
    exact (applyAll_mono is (Set.empty_subset _)).trans hv
  | followed => exact hv

/-- Once everybody on the roster of a host that listens will run, this stays so. -/
theorem Complete.moves (hv : v.Complete hostId) (hlistens : v.listens = true)
    (hp : ∀ r c, p r c → c.Owns hostId) (hmoves : Moves p hostId v v') :
    v'.Complete hostId ∧ v'.listens = true := by
  unfold Complete at hv ⊢
  cases hmoves with
  | still => exact ⟨hv, hlistens⟩
  | heard => exact ⟨hv, rfl⟩
  | changed hnodup hc =>
    refine ⟨?_, hlistens⟩
    dsimp only
    rw [applyAll_append]
    exact (hp _ _ hc).subset_applyAll hnodup hv
  | @answered r _ _ is _ due live hnodup hagents hsent hdue =>
    refine ⟨?_, hlistens⟩
    dsimp only at hv ⊢
    rw [hagents]
    rcases hsent with rfl | ⟨ids, rfl, -⟩
    · rwa [List.append_nil]
    · rw [applyAll_append] at hv
      rw [applyAll_append, applyAll_append]
      exact hv.trans (applyAll_mono due Set.subset_union_left)
  -- a host that listens loses nothing
  | lost => cases hlistens
  | followed => exact ⟨hv, hlistens⟩

/-- The welcomes on their way stay good. -/
theorem Primed.moves (hv : v.Primed hostId) (hp : ∀ r c, p r c → c.Owns hostId)
    (hmoves : Moves p hostId v v') : v'.Primed hostId := by
  unfold Primed at hv ⊢
  cases hmoves with
  | still => exact hv
  | heard => exact hv
  | changed hnodup hc =>
    refine hv.append (fun live hlive => (hp _ _ hc).subset_applyAll hnodup hlive) ?_
    exact .of_not_welcome (Change.not_welcome_of_mem_instructions)
  -- an answer starts the roster as it is now, and the change that is due keeps it so
  | @answered r _ _ is _ due _ hnodup hagents hsent hdue =>
    dsimp only at hv ⊢
    rw [hagents]
    rcases hsent with rfl | ⟨ids, rfl, hids⟩
    · rwa [List.append_nil]
    · rw [List.append_assoc]
      refine hv.insert ?_
      show _ ⊆ applyAll due (∅ ∪ {id | id ∈ ids})
      rw [Set.empty_union, show {id | id ∈ ids} = roster r.agents hostId from Set.ext hids]
      rcases hdue with rfl | ⟨c, _, hpc, hc, rfl⟩
      · exact Set.Subset.rfl
      · exact (hp _ _ hpc).roster_subset_applyAll hc hnodup
  | lost => exact hv.2
  | followed => exact hv.2

/-- A welcome that the host follows sees to it that everybody on the roster will run. -/
theorem Primed.complete {r : Records} {listens : Bool} {ids : List String}
    {is : List Instruction} {live : Set String}
    (hv : Primed hostId ⟨r, listens, .welcome ids :: is, live⟩) :
    Complete hostId ⟨r, listens, is, Instruction.apply (.welcome ids) live⟩ :=
  (hv.1 ids rfl).trans (applyAll_mono (.welcome ids :: is) (Set.empty_subset live))

/-! ## Many moves -/

theorem Sound.run (hv : v.Sound hostId)
    (hp : ∀ r c, (AgentModel.ids r.agents).Nodup → p r c → c.Spares r hostId)
    (hmoves : Relation.ReflTransGen (Moves p hostId) v v') : v'.Sound hostId := by
  induction hmoves with
  | refl => exact hv
  | tail _ hmove ih => exact ih.moves hp hmove

theorem Complete.run (hv : v.Complete hostId) (hlistens : v.listens = true)
    (hp : ∀ r c, p r c → c.Owns hostId)
    (hmoves : Relation.ReflTransGen (Moves p hostId) v v') : v'.Complete hostId := by
  have hboth : v'.Complete hostId ∧ v'.listens = true := by
    induction hmoves with
    | refl => exact ⟨hv, hlistens⟩
    | tail _ hmove ih => exact ih.1.moves ih.2 hp hmove
  exact hboth.1

end View

end Coordination
