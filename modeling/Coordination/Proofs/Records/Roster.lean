import Coordination.Proofs.Records.Queries
import Mathlib.Data.List.Nodup
import Mathlib.Data.Set.Insert
/-!
# The roster of a host

The agents that are to run on a host: those that are on record, enabled, with the id of this host.
The roster is what a welcome lists, and it changes with the record of one agent at a time.
-/

namespace Coordination

/-- The ids of the agents on record that are to run on a host. -/
def roster (agents : List AgentModel) (hostId : String) : Set String :=
  {id | ∃ m ∈ agents, m.id = id ∧ m.isEnabled = true ∧ m.hostId = some hostId}

/-- The ids of agents, in their order. -/
def AgentModel.ids (agents : List AgentModel) : List String := agents.map AgentModel.id

namespace Records

variable {agents : List AgentModel} {m : AgentModel} {id hostId : String}

/-! ## One record for each id -/

theorem ids_putAgent (m : AgentModel) (agents : List AgentModel) :
    AgentModel.ids (putAgent m agents) =
      if m.id ∈ AgentModel.ids agents then AgentModel.ids agents
      else AgentModel.ids agents ++ [m.id] := by
  unfold AgentModel.ids
  induction agents with
  | nil => rfl
  | cons b bs ih =>
    by_cases hb : b.id = m.id
    · simp [putAgent, hb]
    · by_cases hbs : m.id ∈ bs.map AgentModel.id
      · rw [if_pos hbs] at ih
        simp [putAgent, hb, ih, hbs]
      · rw [if_neg hbs] at ih
        simp [putAgent, hb, ih, hbs, Ne.symm hb]

/-- Putting a record in keeps one record for each id. -/
theorem nodup_putAgent (h : (AgentModel.ids agents).Nodup) (m : AgentModel) :
    (AgentModel.ids (putAgent m agents)).Nodup := by
  rw [ids_putAgent]
  split
  · exact h
  · next hnew =>
    refine List.nodup_append.mpr ⟨h, List.nodup_singleton _, fun id hold id' hlast heq => hnew ?_⟩
    rw [List.mem_singleton] at hlast
    rwa [← hlast, ← heq]

/-- Putting a record in replaces the one of the same id. -/
theorem mem_putAgent (h : (AgentModel.ids agents).Nodup) {x : AgentModel} :
    x ∈ putAgent m agents ↔ x = m ∨ x ∈ agents ∧ x.id ≠ m.id := by
  unfold AgentModel.ids at h
  induction agents with
  | nil => simp [putAgent]
  | cons b bs ih =>
    obtain ⟨hb, hbs⟩ := List.nodup_cons.mp h
    unfold putAgent
    split
    · next heq =>
      -- no other record has the id
      have hne : ∀ y ∈ bs, y.id ≠ m.id := by
        intro y hy hym
        exact hb (List.mem_map.mpr ⟨y, hy, hym.trans heq.symm⟩)
      rw [List.mem_cons, List.mem_cons]
      constructor
      · rintro (rfl | hx)
        · exact .inl rfl
        · exact .inr ⟨.inr hx, hne x hx⟩
      · rintro (rfl | ⟨rfl | hx, hxm⟩)
        · exact .inl rfl
        · exact absurd heq hxm
        · exact .inr hx
    · next hne =>
      rw [List.mem_cons, List.mem_cons, ih hbs]
      constructor
      · rintro (rfl | rfl | ⟨hx, hxm⟩)
        · exact .inr ⟨.inl rfl, hne⟩
        · exact .inl rfl
        · exact .inr ⟨.inr hx, hxm⟩
      · rintro (rfl | ⟨rfl | hx, hxm⟩)
        · exact .inr (.inl rfl)
        · exact .inl rfl
        · exact .inr (.inr ⟨hx, hxm⟩)

/-- The record that was put in is found under its id. -/
theorem agent?_addAgent_self (r : Records) (m : AgentModel) :
    (r.addAgent m).agent? m.id = some m := by
  unfold agent? addAgent
  induction r.agents with
  | nil => simp [putAgent]
  | cons b bs ih =>
    by_cases hb : b.id = m.id
    · simp [putAgent, hb]
    · simpa [putAgent, hb] using ih

theorem agent?_eq_some_iff {r : Records} (h : (AgentModel.ids r.agents).Nodup) :
    r.agent? id = some m ↔ m ∈ r.agents ∧ m.id = id := by
  unfold agent?
  constructor
  · intro hfind
    have hid : (m.id == id) = true :=
      List.find?_some (p := fun a : AgentModel => a.id == id) hfind
    exact ⟨List.mem_of_find?_eq_some hfind, beq_iff_eq.mp hid⟩
  · rintro ⟨hm, rfl⟩
    cases hfind : r.agents.find? fun a => a.id == m.id with
    | none => exact absurd (beq_self_eq_true m.id) (List.find?_eq_none.mp hfind m hm)
    | some x =>
      have hid : (x.id == m.id) = true :=
        List.find?_some (p := fun a : AgentModel => a.id == m.id) hfind
      have hx := List.inj_on_of_nodup_map h (List.mem_of_find?_eq_some hfind) hm (beq_iff_eq.mp hid)
      rw [hx]

theorem agent?_removeAgent_self (r : Records) (id : String) :
    (r.removeAgent id).agent? id = none := by
  unfold agent? removeAgent
  rw [List.find?_eq_none]
  intro a ha
  have hne := (List.mem_filter.mp ha).2
  rw [bne_iff_ne] at hne
  rwa [beq_iff_eq]

/-! ## Rosters -/

/-- A welcome, which lists the enabled agents of a host in some order, lists its roster. -/
theorem mem_ids_of_perm {listed : List AgentModel}
    (h : listed.Perm (agents.filter fun a => a.isEnabled && a.hostId == some hostId)) :
    id ∈ AgentModel.ids listed ↔ id ∈ roster agents hostId := by
  unfold AgentModel.ids roster
  rw [(h.map AgentModel.id).mem_iff]
  simp only [List.mem_map, List.mem_filter, Bool.and_eq_true, beq_iff_eq]
  constructor
  · rintro ⟨m, ⟨hm, hparts⟩, hid⟩
    exact ⟨m, hm, hid, hparts⟩
  · rintro ⟨m, hm, hid, hparts⟩
    exact ⟨m, ⟨hm, hparts⟩, hid⟩

/-- An agent on record is on the rosters that its record says. -/
theorem mem_roster_of_agent? {r : Records} (h : (AgentModel.ids r.agents).Nodup)
    (hfound : r.agent? id = some m) :
    id ∈ roster r.agents hostId ↔ m.isEnabled = true ∧ m.hostId = some hostId := by
  obtain ⟨hm, rfl⟩ := (agent?_eq_some_iff h).mp hfound
  constructor
  · rintro ⟨x, hx, hids, hparts⟩
    obtain rfl := List.inj_on_of_nodup_map h hx hm hids
    exact hparts
  · exact fun hparts => ⟨m, hm, rfl, hparts⟩

/-- Who is not on record is on no roster. -/
theorem not_mem_roster_of_agent? {r : Records} (hnone : r.agent? id = none) :
    id ∉ roster r.agents hostId := by
  rintro ⟨m, hm, rfl, -⟩
  exact List.find?_eq_none.mp hnone m hm (beq_self_eq_true m.id)

/-- Putting a record in puts its agent on the roster or takes it off. -/
theorem mem_roster_putAgent (h : (AgentModel.ids agents).Nodup) :
    id ∈ roster (putAgent m agents) hostId ↔
      id = m.id ∧ m.isEnabled = true ∧ m.hostId = some hostId ∨
      id ≠ m.id ∧ id ∈ roster agents hostId := by
  unfold roster
  simp only [mem_putAgent h]
  constructor
  · rintro ⟨x, rfl | ⟨hx, hne⟩, rfl, hparts⟩
    · exact .inl ⟨rfl, hparts⟩
    · exact .inr ⟨hne, x, hx, rfl, hparts⟩
  · rintro (⟨rfl, hparts⟩ | ⟨hne, x, hx, rfl, hparts⟩)
    · exact ⟨m, .inl rfl, rfl, hparts⟩
    · exact ⟨x, .inr ⟨hx, hne⟩, rfl, hparts⟩

/-- Taking a record off takes its agent off the roster. -/
theorem mem_roster_removed {other : String} :
    id ∈ roster (agents.filter fun a => a.id != other) hostId ↔
      id ≠ other ∧ id ∈ roster agents hostId := by
  unfold roster
  simp only [List.mem_filter, bne_iff_ne]
  constructor
  · rintro ⟨x, ⟨hx, hne⟩, rfl, hparts⟩
    exact ⟨hne, x, hx, rfl, hparts⟩
  · rintro ⟨hne, x, hx, rfl, hparts⟩
    exact ⟨x, ⟨hx, hne⟩, rfl, hparts⟩

/-- An agent is on the roster of one host at most. -/
theorem eq_of_mem_roster (h : (AgentModel.ids agents).Nodup) {hostId' : String}
    (hid : id ∈ roster agents hostId) (hid' : id ∈ roster agents hostId') : hostId = hostId' := by
  obtain ⟨m, hm, rfl, -, hhost⟩ := hid
  obtain ⟨m', hm', hids, -, hhost'⟩ := hid'
  obtain rfl := List.inj_on_of_nodup_map h hm' hm hids
  rw [hhost] at hhost'
  exact Option.some.inj hhost'

end Records

end Coordination
