import Coordination.Credential.Client
import Mathlib.Data.List.Basic
/-!
# One call of a client

The steps of a call that is the only one in progress.  Places that earlier calls left behind are
closed, so the call asks by itself, waits at the only place for its name, and gives this place up
before it asks again.
-/

namespace Coordination.CredentialClient

/-! ## Tables -/

theorem lookup_setKey {α : Type} (key : String) (a : α) (table : List (String × α)) :
    (setKey key a table).lookup key = some a := by
  induction table with
  | nil => exact List.lookup_cons_self
  | cons entry rest ih =>
    obtain ⟨k, b⟩ := entry
    unfold setKey
    by_cases hk : k = key
    · rw [if_pos hk]
      exact List.lookup_cons_self
    · rw [if_neg hk, List.lookup_cons, beq_eq_false_iff_ne.mpr (Ne.symm hk)]
      exact ih

theorem lookup_filter_ne {α : Type} (key : String) (table : List (String × α)) :
    (table.filter fun entry => entry.1 != key).lookup key = none := by
  rw [List.lookup_eq_none_iff]
  intro entry hentry
  have hne := (List.mem_filter.mp hentry).2
  rw [bne_iff_ne] at hne
  exact bne_iff_ne.mpr (Ne.symm hne)

variable {c : CredentialClient} {b : Bus} {k k' : Call} {attempt : Nat} {value : String}

/-- The places that were set are those that are found. -/
theorem waiters_setWaiters (c : CredentialClient) (name : String) (ts : List Ticket) :
    (c.setWaiters name ts).waiters name = ts := by
  unfold waiters setWaiters
  -- a name without places is not in the table at all
  by_cases hts : ts = []
  · simp only [if_pos hts]
    show ((c.pending.filter fun entry => entry.1 != name).lookup name).getD [] = ts
    rw [lookup_filter_ne, hts]
    rfl
  · simp only [if_neg hts, lookup_setKey, Option.getD_some]

/-! ## The call in progress -/

/-- This call is in progress, and no other. -/
def Sole (c : CredentialClient) (k : Call) : Prop :=
  ∃ others, c.calls = others ++ [k] ∧ ∀ j ∈ others, j.id ≠ k.id ∧ j.isDone = true

theorem Sole.find?_others {others : List Call} (hothers : ∀ j ∈ others, j.id ≠ k.id ∧ j.isDone = true) :
    others.find? (fun j => j.id == k.id) = none := by
  rw [List.find?_eq_none]
  intro j hj
  rw [beq_iff_eq]
  exact (hothers j hj).1

theorem Sole.call?_eq (h : c.Sole k) : c.call? k.id = some k := by
  obtain ⟨others, hcalls, hothers⟩ := h
  unfold call?
  rw [hcalls, List.find?_append, Sole.find?_others hothers, Option.none_or]
  simp

/-- Every other call has returned. -/
theorem Sole.isDone_of_call? (h : c.Sole k) {id : Nat} (hid : id ≠ k.id) {j : Call}
    (hj : c.call? id = some j) : j.isDone = true := by
  obtain ⟨others, hcalls, hothers⟩ := h
  have hfound : j ∈ c.calls := List.mem_of_find?_eq_some hj
  have hjd : (j.id == id) = true := List.find?_some (p := fun j : Call => j.id == id) hj
  rw [hcalls, List.mem_append, List.mem_singleton] at hfound
  rcases hfound with hmem | rfl
  · exact (hothers j hmem).2
  · exact absurd (beq_iff_eq.mp hjd).symm hid

theorem Sole.setCall (h : c.Sole k) (hid : k'.id = k.id) : (c.setCall k').Sole k' := by
  obtain ⟨others, hcalls, hothers⟩ := h
  refine ⟨others, ?_, fun j hj => hid ▸ hothers j hj⟩
  have hself : others.map (fun j => if j.id = k'.id then k' else j) = others := by
    refine (List.map_congr_left fun j hj => ?_).trans (List.map_id' others)
    exact if_neg (hid ▸ (hothers j hj).1)
  unfold CredentialClient.setCall
  dsimp only
  rw [hcalls, List.map_append, hself, List.map_singleton, if_pos hid.symm]

/-- Only the call in progress keeps places open. -/
theorem Sole.isOpen_eq_false (h : c.Sole k) {t : Ticket} (ht : t.call ≠ k.id) :
    c.isOpen t = false := by
  unfold isOpen
  cases hcall : c.call? t.call with
  | none => rfl
  | some j =>
    have hdone := h.isDone_of_call? ht hcall
    unfold Call.isDone at hdone
    unfold Call.place?
    cases hstage : j.stage with
    | done result =>
      -- a call that has returned holds no place
      dsimp only
      rw [hstage]
      rfl
    | _ =>
      rw [hstage] at hdone
      cases hdone

/-- A call that has no place keeps none open. -/
theorem Sole.isOpen_of_place? (h : c.Sole k) (hplace : k.place? = none) (t : Ticket) :
    c.isOpen t = false := by
  by_cases ht : t.call = k.id
  · unfold isOpen
    rw [ht, h.call?_eq]
    dsimp only
    rw [hplace]
    rfl
  · exact h.isOpen_eq_false ht

/-! ## Its steps -/

/-- A call for a name that is not known makes its first attempt. -/
theorem step_lookup (hstage : k.stage = .lookup) (hcache : c.cache.lookup k.name = none) (b : Bus) :
    c.step b k = some (c.setCall { k with stage := c.attemptOr k.name 1 }, b) := by
  unfold step
  rw [hstage]
  dsimp only
  rw [hcache]

/-- A call that finds no open place takes the only one, and is to ask. -/
theorem step_enlist (hstage : k.stage = .enlist attempt)
    (hclosed : ∀ t ∈ c.waiters k.name, c.isOpen t = false) (b : Bus) :
    c.step b k = some ((c.setWaiters k.name [⟨k.id, attempt⟩]).setCall
      { k with stage := .send attempt none }, b) := by
  have hnone : (c.waiters k.name).filter c.isOpen = [] := by
    rw [List.filter_eq_nil_iff]
    intro t ht
    rw [hclosed t ht]
    exact Bool.false_ne_true
  unfold step
  rw [hstage]
  dsimp only
  rw [hnone]
  rfl

/-- A call that has asked waits. -/
theorem step_send {letter : Option String} (hstage : k.stage = .send attempt letter) {b' : Bus}
    (hrequest : c.request b k.name = (.ok (), b')) :
    c.step b k = some (c.setCall (c.beginWait k attempt letter), b') := by
  unfold step
  rw [hstage]
  dsimp only
  rw [hrequest]

theorem step_wait_some (hstage : k.stage = .wait attempt (some value)) (b : Bus) :
    c.step b k = some (c.setCall { k with stage := .done (.ok value) }, b) := by
  unfold step
  rw [hstage]

/-- A call that waits at a place goes on when its time has run out. -/
theorem step_wait_none (hstage : k.stage = .wait attempt none)
    (hplace : ⟨k.id, attempt⟩ ∈ c.waiters k.name) (b : Bus) :
    c.step b k =
      if k.deadline ≤ c.now then some (c.setCall { k with stage := .withdraw attempt none }, b)
      else none := by
  unfold step
  rw [hstage]
  exact if_neg fun hnot => hnot hplace

/-- A call that waited in vain gives its place up, and tries again or returns. -/
theorem step_withdraw (h : c.Sole k) (hstage : k.stage = .withdraw attempt none) (b : Bus) :
    c.step b k = some ((c.setWaiters k.name []).setCall
      { k with stage := c.attemptOr k.name (attempt + 1) }, b) := by
  have hplace : k.place? = none := by
    unfold Call.place?
    rw [hstage]
  -- neither this call nor any other keeps a place open
  have hnone : (c.waiters k.name).filter c.isOpen = [] := by
    rw [List.filter_eq_nil_iff]
    intro t _
    rw [h.isOpen_of_place? hplace t]
    exact Bool.false_ne_true
  unfold step prune
  rw [hstage]
  dsimp only
  rw [hnone]

theorem step_done {result : Except Error String} (hstage : k.stage = .done result) (b : Bus) :
    c.step b k = none := by
  unfold step
  rw [hstage]

/-- No call but the one in progress takes a step. -/
theorem Sole.step_of_ne (h : c.Sole k) {id : Nat} (hid : id ≠ k.id) (b : Bus) :
    (c.call? id).bind (c.step b) = none := by
  cases hcall : c.call? id with
  | none => rfl
  | some j =>
    have hdone := h.isDone_of_call? hid hcall
    unfold Call.isDone at hdone
    cases hstage : j.stage with
    | done result => exact step_done hstage b
    | _ =>
      rw [hstage] at hdone
      cases hdone

/-! ## Its answer -/

/-- A call that waits at the only place for its name is told the value that was kept for it. -/
theorem Sole.tell (h : c.Sole k) (hstage : k.stage = .wait attempt none)
    (hplace : c.waiters k.name = [⟨k.id, attempt⟩]) (huntold : c.untold = [(k.name, value)]) :
    c.tell.Sole { k with stage := .wait attempt (some value) } ∧ c.tell.waiters k.name = [] ∧
      c.tell.untold = [] := by
  obtain ⟨others, hcalls, hothers⟩ := h
  have htold : c.tell = { c with untold := [] }.resolve k.name value := by
    unfold CredentialClient.tell
    rw [huntold]
  have hdeliver : k.deliver attempt value = { k with stage := .wait attempt (some value) } := by
    unfold Call.deliver
    rw [hstage]
    exact if_pos rfl
  -- the calls that have returned are not meant by the place
  have hself : others.map (fun j => if j.id = k.id then j.deliver attempt value else j) =
      others := by
    refine (List.map_congr_left fun j hj => ?_).trans (List.map_id' others)
    exact if_neg (hothers j hj).1
  rw [htold]
  refine ⟨⟨others, ?_, hothers⟩, ?_, rfl⟩
  · show (c.waiters k.name).foldl (deliver value) c.calls = _
    rw [hplace, hcalls]
    show (others ++ [k]).map (fun j => if j.id = k.id then j.deliver attempt value else j) = _
    rw [List.map_append, hself, List.map_singleton, if_pos rfl, hdeliver]
  · exact waiters_setWaiters { c with untold := [] } k.name []

end Coordination.CredentialClient
