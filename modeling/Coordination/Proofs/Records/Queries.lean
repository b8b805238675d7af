import Coordination.Repository
import Mathlib.Data.List.Basic
/-!
# What the records answer

The answers of the records in terms of the tables: which agents are those of a host, which
credential is granted to an agent, and what changes when the plugins of a host are recorded.  A
repository that answers every question passes these answers on.
-/

namespace Coordination

/-! ## Grants -/

/-- A credential of an owner for an agent under a name. -/
def Credential.IsGrant (c : Credential) (ownerId agentId name : String) : Prop :=
  c.ownerId = ownerId ∧ c.agentId = agentId ∧ c.name = name

instance (c : Credential) (ownerId agentId name : String) :
    Decidable (c.IsGrant ownerId agentId name) := by
  unfold Credential.IsGrant
  infer_instance

namespace Records

/-- The agent is on record with a host, which is on record with this owner. -/
def OwnedBy (r : Records) (agentId ownerId : String) : Prop :=
  ∃ agent hostId entry, r.agent? agentId = some agent ∧ agent.hostId = some hostId ∧
    r.entry? hostId = some entry ∧ entry.ownerId = some ownerId

/-- The first credential under a name that the owner of the agent's host granted to the agent. -/
def Grants (r : Records) (agentId name : String) (c : Credential) : Prop :=
  ∃ ownerId before after, r.OwnedBy agentId ownerId ∧ r.credentials = before ++ c :: after ∧
    c.IsGrant ownerId agentId name ∧ ∀ c' ∈ before, ¬ c'.IsGrant ownerId agentId name

/-- An owner is found exactly by way of the host of the agent. -/
theorem ownerOfAgent?_eq_some_iff {r : Records} {agentId ownerId : String} :
    r.ownerOfAgent? agentId = some ownerId ↔ r.OwnedBy agentId ownerId := by
  simp only [ownerOfAgent?, hostOfAgent?, OwnedBy, Option.bind_eq_some_iff]
  constructor
  · intro hparts
    obtain ⟨hostId, ⟨agent, hagent, hhost⟩, entry, hentry, howner⟩ := hparts
    exact ⟨agent, hostId, entry, hagent, hhost, hentry, howner⟩
  · intro hparts
    obtain ⟨agent, hostId, entry, hagent, hhost, hentry, howner⟩ := hparts
    exact ⟨hostId, ⟨agent, hagent, hhost⟩, entry, hentry, howner⟩

/-- The secret that is found is that of the first grant. -/
theorem credential?_eq_some_iff {r : Records} {agentId name value : String} :
    r.credential? agentId name = some value ↔ ∃ c, r.Grants agentId name c ∧ c.value = value := by
  -- the test of the search is the proposition that the specification uses
  have hgrant : ∀ (c : Credential) (ownerId : String),
      (c.ownerId == ownerId && c.agentId == agentId && c.name == name) = true ↔
        c.IsGrant ownerId agentId name := by
    intro c ownerId
    simp only [Bool.and_eq_true, beq_iff_eq, Credential.IsGrant, and_assoc]
  simp only [credential?, Option.bind_eq_some_iff, Option.map_eq_some_iff,
    List.find?_eq_some_iff_append, ownerOfAgent?_eq_some_iff, hgrant, Bool.not_eq_true',
    ← Bool.not_eq_true]
  constructor
  · intro hparts
    obtain ⟨ownerId, howner, c, ⟨hc, before, after, heq, hbefore⟩, hvalue⟩ := hparts
    exact ⟨c, ⟨ownerId, before, after, howner, heq, hc, hbefore⟩, hvalue⟩
  · intro hparts
    obtain ⟨c, ⟨ownerId, before, after, howner, heq, hc, hbefore⟩, hvalue⟩ := hparts
    exact ⟨ownerId, howner, c, ⟨hc, before, after, heq, hbefore⟩, hvalue⟩

/-! ## Agents of a host -/

/-- Inserting adds the agent and nothing else. -/
theorem perm_insertById (a : AgentModel) (as : List AgentModel) :
    (insertById a as).Perm (a :: as) := by
  induction as with
  | nil => exact .refl _
  | cons b bs ih =>
    simp only [insertById]
    split
    · exact (ih.cons b).trans (.swap a b bs)
    · exact .refl _

theorem perm_sortById (as : List AgentModel) : (sortById as).Perm as := by
  induction as with
  | nil => exact .refl _
  | cons a as ih => exact (perm_insertById a _).trans (ih.cons a)

theorem sorted_insertById (a : AgentModel) {as : List AgentModel}
    (h : as.Pairwise fun b c => b.id ≤ c.id) :
    (insertById a as).Pairwise fun b c => b.id ≤ c.id := by
  -- on the list: the agent goes before the first that is not smaller, or further on
  induction as with
  | nil => exact List.pairwise_singleton _ _
  | cons b bs ih =>
    obtain ⟨hb, hbs⟩ := List.pairwise_cons.mp h
    simp only [insertById]
    split
    · next hlt =>
      refine List.pairwise_cons.mpr ⟨fun c hc => ?_, ih hbs⟩
      rcases List.mem_cons.mp ((perm_insertById a bs).mem_iff.mp hc) with rfl | hc
      · exact Std.le_of_lt hlt
      · exact hb c hc
    · next hnlt =>
      have hab : a.id ≤ b.id := String.not_lt.mp hnlt
      refine List.pairwise_cons.mpr ⟨fun c hc => ?_, h⟩
      rcases List.mem_cons.mp hc with rfl | hc
      · exact hab
      · exact Std.le_trans hab (hb c hc)

theorem sorted_sortById (as : List AgentModel) :
    (sortById as).Pairwise fun b c => b.id ≤ c.id := by
  induction as with
  | nil => exact .nil
  | cons a as ih => exact sorted_insertById a ih

/-! ## Recording plugins -/

/-- The entry that was put is found under its id. -/
theorem find?_putHost_self (e : HostEntry) (hs : List HostEntry) :
    (putHost e hs).find? (fun h => h.host.id == e.host.id) = some e := by
  induction hs with
  | nil => simp [putHost]
  | cons h hs ih =>
    simp only [putHost]
    split
    · simp
    · next hne => simp [hne, ih]

theorem find?_putHost_of_ne {e : HostEntry} {hostId : String} (hne : hostId ≠ e.host.id)
    (hs : List HostEntry) :
    (putHost e hs).find? (fun h => h.host.id == hostId) =
      hs.find? fun h => h.host.id == hostId := by
  induction hs with
  | nil => simp [putHost, Ne.symm hne]
  | cons h hs ih =>
    simp only [putHost]
    split
    · next heq => simp [heq, Ne.symm hne]
    · simp only [List.find?_cons, ih]

/-- An entry stands under the id of its host. -/
theorem id_of_entry? {r : Records} {hostId : String} {e : HostEntry}
    (h : r.entry? hostId = some e) : e.host.id = hostId := by
  have hfound : (e.host.id == hostId) = true :=
    List.find?_some (p := fun e : HostEntry => e.host.id == hostId) h
  exact beq_iff_eq.mp hfound

/-- What recording the plugins of a host leaves as it was: everything but the plugins in the entry
of this host, and the count of the ids given out. -/
structure SameBut (hostId : String) (r r' : Records) : Prop where
  agents : r'.agents = r.agents
  credentials : r'.credentials = r.credentials
  others : ∀ other, other ≠ hostId → r'.entry? other = r.entry? other
  entry : ∀ e, r.entry? hostId = some e →
    r'.entry? hostId = some { e with host := { e.host with plugins := r'.pluginsOf hostId } }

/-- Recording the plugins of a known host gives the list as it then stands, and changes nothing
else. -/
theorem sync_eq_ok {r : Records} {hostId : String} {e : HostEntry}
    (h : r.entry? hostId = some e) (reported : List Plugin) :
    ∃ r', r.sync hostId reported = .ok (r', r'.pluginsOf hostId) ∧ r.SameBut hostId r' := by
  obtain rfl := id_of_entry? h
  -- the entry that takes the place of the old one, under the same id
  let found := recordAll r.newId r.issued e.host.plugins reported
  let e' : HostEntry := { e with host := { e.host with plugins := found.1 } }
  let r' : Records := { r with hosts := putHost e' r.hosts, issued := found.2 }
  have hentry : r'.entry? e.host.id = some e' := find?_putHost_self e' r.hosts
  have hplugins : r'.pluginsOf e.host.id = found.1 := by
    simp only [pluginsOf, host?, hentry, Option.map_some, e']
  refine ⟨r', ?_, rfl, rfl, fun other hne => ?_, fun e₁ he₁ => ?_⟩
  · rw [hplugins]
    simp only [sync, h]
    rfl
  · exact find?_putHost_of_ne (e := e') hne r.hosts
  · rw [h] at he₁
    cases he₁
    rw [hentry, hplugins]

end Records

/-! ## Repositories that answer -/

namespace Repository

variable (r : Records)

/-- A repository that refuses no question gives the answer. -/
theorem ask_of_up {α : Type} (q : Query) (answer : Except Fault α) :
    ask ⟨r, []⟩ q answer = answer.mapError .records :=
  if_neg List.not_mem_nil

theorem host?_of_up (hostId : String) : host? ⟨r, []⟩ hostId = .ok (r.host? hostId) :=
  ask_of_up r _ _

theorem agentsOf_of_up (hostId : String) : agentsOf ⟨r, []⟩ hostId = .ok (r.agentsOf hostId) :=
  ask_of_up r _ _

theorem credential?_of_up (agentId name : String) :
    credential? ⟨r, []⟩ agentId name = .ok (r.credential? agentId name) :=
  ask_of_up r _ _

theorem sync_of_up {r' : Records} {hostId : String} {reported plugins : List Plugin}
    (h : r.sync hostId reported = .ok (r', plugins)) :
    sync ⟨r, []⟩ hostId reported = .ok (⟨r', []⟩, plugins) := by
  rw [sync, ask_of_up, h]
  rfl

end Repository

end Coordination
