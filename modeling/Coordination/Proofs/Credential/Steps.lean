import Coordination.Proofs.Credential.Calls
/-!
# One step of one of many calls

Any number of calls use a client side by side.  A step of a call changes the places for its name and
the call itself, and a value that is told to a list of places changes the calls that wait there.
-/

namespace Coordination

namespace Call

/-- The call has a place for this attempt, and no value came to it yet. -/
def Awaits (k : Call) (attempt : Nat) : Prop :=
  k.stage = .send attempt none ∨ k.stage = .wait attempt none

/-- A place for this attempt may be in the table: the call waits under it, or it was going to give
the place up. -/
def Keeps (k : Call) (attempt : Nat) : Prop :=
  k.Awaits attempt ∨ ∃ failure, k.stage = .withdraw attempt failure

/-- The call after a value came for which it waits, if it waits. -/
def give (value : String) (k : Call) : Call :=
  match k.stage with
  | .send attempt none => { k with stage := .send attempt (some value) }
  | .wait attempt none => { k with stage := .wait attempt (some value) }
  | _ => k

/-- The call after a value was given to places. -/
def told (value : String) (ts : List Ticket) (k : Call) : Call :=
  ts.foldl (fun k t => if k.id = t.call then k.deliver t.attempt value else k) k

/-- A value came to the call. -/
def Holds (k : Call) (value : String) : Prop :=
  (∃ attempt, k.stage = .send attempt (some value) ∨ k.stage = .wait attempt (some value)) ∨
    k.stage = .done (.ok value)

/-- The call is to return with an error, or did. -/
def Fails (k : Call) (e : Error) : Prop :=
  (∃ attempt, k.stage = .withdraw attempt (some e)) ∨ k.stage = .done (.error e)

variable {k : Call} {attempt : Nat} {value : String} {ts : List Ticket} {t : Ticket}

theorem Awaits.place?_eq (h : k.Awaits attempt) : k.place? = some attempt := by
  unfold place?
  rcases h with h | h <;> rw [h]

theorem place?_of_enlist (h : k.stage = .enlist attempt) : k.place? = none := by
  unfold place?
  rw [h]

theorem place?_of_withdraw {failure : Option Error} (h : k.stage = .withdraw attempt failure) :
    k.place? = none := by
  unfold place?
  rw [h]

theorem Awaits.not_isDone (h : k.Awaits attempt) : k.isDone = false := by
  unfold isDone
  rcases h with h | h <;> rw [h]

theorem Keeps.not_isDone (h : k.Keeps attempt) : k.isDone = false := by
  rcases h with h | ⟨failure, h⟩
  · exact h.not_isDone
  · unfold isDone
    rw [h]

/-! ## Values on their way -/

/-- A value reaches a call that waits under the place, and changes no other. -/
theorem deliver_of_not_awaits (h : ¬ k.Awaits attempt) (value : String) :
    k.deliver attempt value = k := by
  unfold deliver
  split
  · next other hstage =>
    refine if_neg ?_
    rintro rfl
    exact h (.inl hstage)
  · next other hstage =>
    refine if_neg ?_
    rintro rfl
    exact h (.inr hstage)
  · rfl

/-- A value that comes for the place of a call is given to it. -/
theorem Awaits.deliver_eq (h : k.Awaits attempt) (value : String) :
    k.deliver attempt value = k.give value := by
  unfold deliver give
  rcases h with h | h <;> rw [h] <;> exact if_pos rfl

theorem give_of_not_awaits (h : ∀ attempt, ¬ k.Awaits attempt) (value : String) :
    k.give value = k := by
  unfold give
  split
  · next attempt hstage => exact absurd (.inl hstage) (h attempt)
  · next attempt hstage => exact absurd (.inr hstage) (h attempt)
  · rfl

theorem give_id (k : Call) (value : String) : (k.give value).id = k.id := by
  unfold give
  split <;> rfl

theorem give_name (k : Call) (value : String) : (k.give value).name = k.name := by
  unfold give
  split <;> rfl

/-- A call that was given a value waits for no other. -/
theorem not_awaits_give (k : Call) (value : String) (attempt : Nat) :
    ¬ (k.give value).Awaits attempt := by
  unfold give
  split
  · simp [Awaits]
  · simp [Awaits]
  · next hsend hwait => exact fun h => h.elim (hsend attempt) (hwait attempt)

theorem holds_give {v : String} (h : (k.give value).Holds v) : k.Holds v ∨ v = value := by
  unfold give at h
  split at h
  · refine .inr ?_
    simpa [Holds, eq_comm] using h
  · refine .inr ?_
    simpa [Holds, eq_comm] using h
  · exact .inl h

theorem fails_give {e : Error} (h : (k.give value).Fails e) : k.Fails e := by
  unfold give at h
  split at h
  · simp [Fails] at h
  · simp [Fails] at h
  · exact h

/-- Values for other places do not concern a call. -/
theorem told_of_not_awaits (h : ∀ t ∈ ts, t.call = k.id → ¬ k.Awaits t.attempt) :
    k.told value ts = k := by
  induction ts with
  | nil => rfl
  | cons t ts ih =>
    have hhead : (if k.id = t.call then k.deliver t.attempt value else k) = k := by
      split
      · next hid => exact deliver_of_not_awaits (h t List.mem_cons_self hid.symm) value
      · rfl
    unfold told
    rw [List.foldl_cons, hhead]
    exact ih fun t ht => h t (List.mem_cons_of_mem _ ht)

/-- A value for the place of a call reaches it. -/
theorem told_of_mem (h : k.Awaits attempt) (hmem : ⟨k.id, attempt⟩ ∈ ts) :
    k.told value ts = k.deliver attempt value := by
  induction ts with
  | nil => cases hmem
  | cons t ts ih =>
    unfold told
    rw [List.foldl_cons]
    by_cases ht : t = ⟨k.id, attempt⟩
    · -- from here on the call waits for nothing
      rw [ht, if_pos rfl]
      exact told_of_not_awaits fun t _ _ => h.deliver_eq value ▸ k.not_awaits_give value t.attempt
    · have hhead : (if k.id = t.call then k.deliver t.attempt value else k) = k := by
        split
        · next hid =>
          refine deliver_of_not_awaits (fun hother => ht ?_) value
          -- a call waits under one place only
          have hsame := Option.some.inj (hother.place?_eq.symm.trans h.place?_eq)
          rw [hid, ← hsame]
        · rfl
      rw [hhead]
      exact ih ((List.mem_cons.mp hmem).resolve_left (Ne.symm ht))

end Call

namespace CredentialClient

variable {c c' : CredentialClient} {b b' : Bus} {k k' j : Call} {attempt : Nat}
  {name other value : String} {ts : List Ticket} {t : Ticket}

/-! ## Calls by number -/

theorem mem_of_call? {id : Nat} (h : c.call? id = some k) : k ∈ c.calls ∧ k.id = id :=
  ⟨List.mem_of_find?_eq_some h,
    beq_iff_eq.mp (List.find?_some (p := fun j : Call => j.id == id) h)⟩

theorem deliver_eq_map (value : String) (calls : List Call) (ts : List Ticket) :
    ts.foldl (deliver value) calls = calls.map (Call.told value ts) := by
  induction ts generalizing calls with
  | nil => exact (List.map_id' calls).symm
  | cons t ts ih =>
    rw [List.foldl_cons, ih]
    unfold deliver
    rw [List.map_map]
    rfl

theorem map_id_setCall (c : CredentialClient) (k : Call) :
    (c.setCall k).calls.map Call.id = c.calls.map Call.id := by
  unfold setCall
  dsimp only
  rw [List.map_map]
  refine List.map_congr_left fun j _ => ?_
  show (if j.id = k.id then k else j).id = j.id
  split
  · next hid => exact hid.symm
  · rfl

/-- Setting a call replaces it and leaves the others alone. -/
theorem mem_setCall (hk : k ∈ c.calls) (hid : k'.id = k.id) :
    j ∈ (c.setCall k').calls ↔ j = k' ∨ j ∈ c.calls ∧ j.id ≠ k.id := by
  unfold setCall
  rw [List.mem_map]
  constructor
  · rintro ⟨i, hi, rfl⟩
    by_cases hsame : i.id = k'.id
    · exact .inl (if_pos hsame)
    · rw [if_neg hsame, ← hid]
      exact .inr ⟨hi, hsame⟩
  · rintro (rfl | ⟨hj, hne⟩)
    · exact ⟨k, hk, if_pos hid.symm⟩
    · exact ⟨j, hj, if_neg (hid ▸ hne)⟩

theorem mem_setCall_self (hk : k ∈ c.calls) (stage : Stage) :
    { k with stage } ∈ (c.setCall { k with stage }).calls :=
  List.mem_map.mpr ⟨k, hk, if_pos rfl⟩

/-! ## The table -/

theorem lookup_setKey_of_ne {α : Type} {key other : String} (h : other ≠ key) (a : α)
    (table : List (String × α)) : (setKey key a table).lookup other = table.lookup other := by
  induction table with
  | nil =>
    unfold setKey
    rw [List.lookup_cons, beq_eq_false_iff_ne.mpr h]
  | cons entry rest ih =>
    obtain ⟨k, b⟩ := entry
    unfold setKey
    by_cases hk : k = key
    · rw [if_pos hk, List.lookup_cons, List.lookup_cons, hk, beq_eq_false_iff_ne.mpr h]
    · rw [if_neg hk, List.lookup_cons, List.lookup_cons, ih]

theorem lookup_filter_of_ne {α : Type} {key other : String} (h : other ≠ key)
    (table : List (String × α)) :
    (table.filter fun entry => entry.1 != key).lookup other = table.lookup other := by
  induction table with
  | nil => rfl
  | cons entry rest ih =>
    obtain ⟨k, b⟩ := entry
    by_cases hk : k = key
    · rw [List.filter_cons_of_neg (by simp [hk]), ih, List.lookup_cons, hk,
        beq_eq_false_iff_ne.mpr h]
    · rw [List.filter_cons_of_pos (by simp [hk]), List.lookup_cons, List.lookup_cons, ih]

/-- The places for one name do not concern those for another. -/
theorem waiters_setWaiters_of_ne (h : other ≠ name) (c : CredentialClient) (ts : List Ticket) :
    (c.setWaiters name ts).waiters other = c.waiters other := by
  unfold waiters setWaiters
  by_cases hts : ts = []
  · simp only [if_pos hts]
    exact congrArg (Option.getD · []) (lookup_filter_of_ne h c.pending)
  · simp only [if_neg hts, lookup_setKey_of_ne h]

theorem mem_setKey {α : Type} {key : String} {a : α} {table : List (String × α)}
    {entry : String × α} (h : entry ∈ setKey key a table) : entry = (key, a) ∨ entry ∈ table := by
  induction table with
  | nil => exact .inl (List.mem_singleton.mp h)
  | cons first rest ih =>
    obtain ⟨k, b⟩ := first
    unfold setKey at h
    split at h
    · rcases List.mem_cons.mp h with h | h
      · exact .inl h
      · exact .inr (List.mem_cons_of_mem _ h)
    · rcases List.mem_cons.mp h with h | h
      · exact .inr (h ▸ List.mem_cons_self)
      · exact (ih h).imp_right (List.mem_cons_of_mem _)

/-! ## The step of a call -/

/-- What one step of a call does, by the stage at which the call stands: the call afterwards, the
client and the bus. -/
inductive Stride (c : CredentialClient) (b : Bus) (k : Call) :
    Call → CredentialClient → Bus → Prop
  | known {value : String} (stage : k.stage = .lookup)
      (hit : c.cache.lookup k.name = some value) :
      Stride c b k { k with stage := .done (.ok value) }
        (c.setCall { k with stage := .done (.ok value) }) b
  | unknown (stage : k.stage = .lookup) (miss : c.cache.lookup k.name = none) :
      Stride c b k { k with stage := c.attemptOr k.name 1 }
        (c.setCall { k with stage := c.attemptOr k.name 1 }) b
  | lead {attempt : Nat} (stage : k.stage = .enlist attempt)
      (asks : (c.waiters k.name).filter c.isOpen = [] ∨ 1 < attempt) :
      Stride c b k { k with stage := .send attempt none }
        ((c.setWaiters k.name ((c.waiters k.name).filter c.isOpen ++ [⟨k.id, attempt⟩])).setCall
          { k with stage := .send attempt none }) b
  | join {attempt : Nat} (stage : k.stage = .enlist attempt)
      (company : (c.waiters k.name).filter c.isOpen ≠ []) (first : attempt ≤ 1) :
      Stride c b k (c.beginWait k attempt none)
        ((c.setWaiters k.name ((c.waiters k.name).filter c.isOpen ++ [⟨k.id, attempt⟩])).setCall
          (c.beginWait k attempt none)) b
  | asked {attempt : Nat} {letter : Option String} {b' : Bus}
      (stage : k.stage = .send attempt letter) (request : c.request b k.name = (.ok (), b')) :
      Stride c b k (c.beginWait k attempt letter) (c.setCall (c.beginWait k attempt letter)) b'
  | unasked {attempt : Nat} {letter : Option String} {e : Error} {b' : Bus}
      (stage : k.stage = .send attempt letter) (request : c.request b k.name = (.error e, b')) :
      Stride c b k { k with stage := .withdraw attempt (some e) }
        (c.setCall { k with stage := .withdraw attempt (some e) }) b'
  | told {attempt : Nat} {value : String} (stage : k.stage = .wait attempt (some value)) :
      Stride c b k { k with stage := .done (.ok value) }
        (c.setCall { k with stage := .done (.ok value) }) b
  | struck {attempt : Nat} (stage : k.stage = .wait attempt none)
      (gone : ⟨k.id, attempt⟩ ∉ c.waiters k.name) :
      Stride c b k { k with stage := .done (.error .cancelled) }
        (c.setCall { k with stage := .done (.error .cancelled) }) b
  | late {attempt : Nat} (stage : k.stage = .wait attempt none)
      (placed : ⟨k.id, attempt⟩ ∈ c.waiters k.name) (due : k.deadline ≤ c.now) :
      Stride c b k { k with stage := .withdraw attempt none }
        (c.setCall { k with stage := .withdraw attempt none }) b
  | fail {attempt : Nat} {e : Error} (stage : k.stage = .withdraw attempt (some e)) :
      Stride c b k { k with stage := .done (.error e) }
        ((c.prune k.name).setCall { k with stage := .done (.error e) }) b
  | retry {attempt : Nat} (stage : k.stage = .withdraw attempt none) :
      Stride c b k { k with stage := c.attemptOr k.name (attempt + 1) }
        ((c.prune k.name).setCall { k with stage := c.attemptOr k.name (attempt + 1) }) b

theorem Stride.of_step (h : c.step b k = some (c', b')) : ∃ k', Stride c b k k' c' b' := by
  unfold step at h
  -- one case for each stage; each branch of the step is one way to go on
  cases hstage : k.stage with
  | lookup =>
    rw [hstage] at h
    cases hcache : c.cache.lookup k.name with
    | some v =>
      simp only [hcache, Option.some.injEq, Prod.mk.injEq] at h
      obtain ⟨rfl, rfl⟩ := h
      exact ⟨_, .known hstage hcache⟩
    | none =>
      simp only [hcache, Option.some.injEq, Prod.mk.injEq] at h
      obtain ⟨rfl, rfl⟩ := h
      exact ⟨_, .unknown hstage hcache⟩
  | enlist attempt =>
    simp only [hstage, Option.some.injEq, Prod.mk.injEq] at h
    obtain ⟨rfl, rfl⟩ := h
    split
    · next hasks =>
      rw [Bool.or_eq_true, List.isEmpty_iff, decide_eq_true_eq] at hasks
      exact ⟨_, .lead hstage hasks⟩
    · next hjoins =>
      rw [Bool.or_eq_true, List.isEmpty_iff, decide_eq_true_eq, not_or, Nat.not_lt] at hjoins
      exact ⟨_, .join hstage hjoins.1 hjoins.2⟩
  | send attempt letter =>
    simp only [hstage] at h
    split at h
    · next hrequest =>
      simp only [Option.some.injEq, Prod.mk.injEq] at h
      obtain ⟨rfl, rfl⟩ := h
      exact ⟨_, .asked hstage hrequest⟩
    · next hrequest =>
      simp only [Option.some.injEq, Prod.mk.injEq] at h
      obtain ⟨rfl, rfl⟩ := h
      exact ⟨_, .unasked hstage hrequest⟩
  | wait attempt letter =>
    cases letter with
    | some v =>
      simp only [hstage, Option.some.injEq, Prod.mk.injEq] at h
      obtain ⟨rfl, rfl⟩ := h
      exact ⟨_, .told hstage⟩
    | none =>
      simp only [hstage] at h
      split at h
      · next hgone =>
        simp only [Option.some.injEq, Prod.mk.injEq] at h
        obtain ⟨rfl, rfl⟩ := h
        exact ⟨_, .struck hstage hgone⟩
      · next hplaced =>
        split at h
        · next hdue =>
          simp only [Option.some.injEq, Prod.mk.injEq] at h
          obtain ⟨rfl, rfl⟩ := h
          exact ⟨_, .late hstage (not_not.mp hplaced) hdue⟩
        · cases h
  | withdraw attempt failure =>
    cases failure with
    | some e =>
      simp only [hstage, Option.some.injEq, Prod.mk.injEq] at h
      obtain ⟨rfl, rfl⟩ := h
      exact ⟨_, .fail hstage⟩
    | none =>
      simp only [hstage, Option.some.injEq, Prod.mk.injEq] at h
      obtain ⟨rfl, rfl⟩ := h
      exact ⟨_, .retry hstage⟩
  | done result =>
    simp only [hstage] at h
    cases h

theorem Stride.calls_eq (h : c.Stride b k k' c' b') : c'.calls = (c.setCall k').calls := by
  cases h <;> rfl

theorem Stride.id_eq (h : c.Stride b k k' c' b') : k'.id = k.id := by
  cases h <;> rfl

theorem Stride.name_eq (h : c.Stride b k k' c' b') : k'.name = k.name := by
  cases h <;> rfl

/-- A step changes nothing but the calls and the places. -/
theorem Stride.frame (h : c.Stride b k k' c' b') :
    c' = { c with calls := c'.calls, pending := c'.pending } := by
  cases h <;> rfl

/-- A call to which a value came can only return it. -/
theorem Stride.eq_of_wait_some (h : c.Stride b k k' c' b')
    (hstage : k.stage = .wait attempt (some value)) :
    k' = { k with stage := .done (.ok value) } := by
  cases h with
  | told stage =>
    cases hstage.symm.trans stage
    rfl
  | _ stage => cases hstage.symm.trans stage

theorem Stride.not_done (h : c.Stride b k k' c' b') (result : Except Error String) :
    k.stage ≠ .done result := by
  intro hstage
  cases h with
  | _ stage => cases hstage.symm.trans stage

/-- A call that begins an attempt, or has made them all, waits for nothing and holds nothing. -/
theorem attemptOr_cases (k : Call) (c : CredentialClient) (name : String) (next : Nat) :
    (∀ attempt, ¬ { k with stage := c.attemptOr name next }.Awaits attempt) ∧
      (∀ value, ¬ { k with stage := c.attemptOr name next }.Holds value) ∧
      ∀ e, { k with stage := c.attemptOr name next }.Fails e → e = unanswered name := by
  unfold attemptOr
  split
  · simp [Call.Awaits, Call.Holds, Call.Fails]
  · simp [Call.Awaits, Call.Holds, Call.Fails, eq_comm]

/-- What a call holds, it held before or found in the cache when it looked. -/
theorem Stride.holds (h : c.Stride b k k' c' b') (hvalue : k'.Holds value) :
    k.Holds value ∨ k.stage = .lookup ∧ c.cache.lookup k.name = some value := by
  cases h with
  | known stage hit => exact .inr ⟨stage, by simpa [Call.Holds, hit] using hvalue⟩
  | unknown | retry => exact absurd hvalue ((attemptOr_cases k c k.name _).2.1 value)
  | asked stage => exact .inl (by simpa [Call.Holds, beginWait, stage] using hvalue)
  | told stage => exact .inl (by simpa [Call.Holds, stage] using hvalue)
  | _ => simp [Call.Holds, beginWait] at hvalue

/-- Why a call fails. -/
theorem Stride.fails {e : Error} (h : c.Stride b k k' c' b') (hfails : k'.Fails e) :
    k.Fails e ∨ e = unanswered k.name ∨ (∃ b', c.request b k.name = (.error e, b')) ∨
      ∃ attempt, k.stage = .wait attempt none ∧ ⟨k.id, attempt⟩ ∉ c.waiters k.name := by
  cases h with
  | unknown | retry => exact .inr (.inl ((attemptOr_cases k c k.name _).2.2 e hfails))
  | @unasked _ _ e' _ _ request =>
    have heq : e' = e := by simpa [Call.Fails] using hfails
    exact .inr (.inr (.inl ⟨_, heq ▸ request⟩))
  | struck stage gone => exact .inr (.inr (.inr ⟨_, stage, gone⟩))
  | fail stage => exact .inl (by simpa [Call.Fails, stage] using hfails)
  | _ => simp [Call.Fails, beginWait] at hfails

end CredentialClient

end Coordination
