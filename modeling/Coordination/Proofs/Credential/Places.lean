import Coordination.Proofs.Credential.Steps
import Mathlib.Data.List.Nodup
import Mathlib.Data.List.Range
/-!
# The places of many calls

Every place in the table is for the name of its call, which waits under it or is about to give it
up, unless the call itself was given up.  A call that waits has its place in the table.  So a value
that is told to a name reaches every call that waits for it, and no other call.
-/

namespace Coordination.CredentialClient

variable {c c' c₁ : CredentialClient} {b b' : Bus} {k k' j : Call} {attempt : Nat}
  {name other value : String} {ts : List Ticket} {t : Ticket}

/-- The places are those of the calls. -/
structure Seated (c : CredentialClient) : Prop where
  ids : (c.calls.map Call.id).Sublist (List.range c.made)
  /-- A name without places is not in the table. -/
  occupied : ∀ entry ∈ c.pending, entry.2 ≠ []
  made : ∀ name, ∀ t ∈ c.waiters name, t.call < c.made
  kept : ∀ name, ∀ t ∈ c.waiters name, ∀ k ∈ c.calls, k.id = t.call →
    k.name = name ∧ k.Keeps t.attempt
  placed : ∀ k ∈ c.calls, ∀ attempt, k.Awaits attempt → ⟨k.id, attempt⟩ ∈ c.waiters k.name

namespace Seated

theorem id_lt (h : c.Seated) (hk : k ∈ c.calls) : k.id < c.made :=
  List.mem_range.mp (h.ids.subset (List.mem_map_of_mem hk))

/-- No two calls have one number. -/
theorem eq_of_id (h : c.Seated) (hk : k ∈ c.calls) (hj : j ∈ c.calls) (hid : j.id = k.id) :
    j = k :=
  List.inj_on_of_nodup_map (h.ids.nodup List.nodup_range) hj hk hid

theorem call?_eq (h : c.Seated) (hk : k ∈ c.calls) : c.call? k.id = some k := by
  cases hcall : c.call? k.id with
  | none => exact absurd (beq_self_eq_true k.id) (List.find?_eq_none.mp hcall k hk)
  | some j =>
    obtain ⟨hj, hid⟩ := mem_of_call? hcall
    rw [h.eq_of_id hk hj hid]

/-- A place at which a call waits is open. -/
theorem isOpen_of_awaits (h : c.Seated) (hk : k ∈ c.calls) (hawaits : k.Awaits attempt) :
    c.isOpen ⟨k.id, attempt⟩ = true := by
  unfold isOpen
  dsimp only
  rw [h.call?_eq hk]
  exact beq_iff_eq.mpr hawaits.place?_eq

/-! ## Calls come and go -/

theorem ask (h : c.Seated) (name : String) : (c.ask name).Seated := by
  -- the id of the new call is the count of those made, which no earlier call has
  have hfresh : ∀ k ∈ (c.ask name).calls, k.id < c.made → k ∈ c.calls := by
    intro k hk hlt
    rcases List.mem_append.mp hk with hk | hk
    · exact hk
    · rw [List.mem_singleton.mp hk] at hlt
      exact absurd hlt (Nat.lt_irrefl _)
  refine ⟨?_, h.occupied, fun name t ht => Nat.lt_succ_of_lt (h.made name t ht), ?_, ?_⟩
  · show ((c.calls ++ [_]).map Call.id).Sublist (List.range (c.made + 1))
    rw [List.map_append, List.range_succ]
    exact h.ids.append_right _
  · intro other t ht k hk hid
    exact h.kept other t ht k (hfresh k hk (hid ▸ h.made other t ht)) hid
  · intro k hk attempt hawaits
    rcases List.mem_append.mp hk with hk | hk
    · exact h.placed k hk attempt hawaits
    · rw [List.mem_singleton.mp hk] at hawaits
      rcases hawaits with hstage | hstage <;> cases hstage

theorem abandon (h : c.Seated) (id : Nat) : (c.abandon id).Seated := by
  have hsub : (c.abandon id).calls.Sublist c.calls := List.filter_sublist
  exact ⟨(hsub.map Call.id).trans h.ids, h.occupied, h.made,
    fun name t ht k hk => h.kept name t ht k (hsub.subset hk),
    fun k hk => h.placed k (hsub.subset hk)⟩

/-- The places do not depend on the time or on the values that are kept. -/
theorem congr (h : c.Seated) (hcalls : c'.calls = c.calls) (hpending : c'.pending = c.pending)
    (hmade : c'.made = c.made) : c'.Seated := by
  have hwaiters : ∀ name, c'.waiters name = c.waiters name := by
    intro name
    unfold waiters
    rw [hpending]
  -- places depend on the calls, on who waits and on the next number alone
  constructor
  case ids =>
    rw [hcalls, hmade]
    exact h.ids
  case occupied =>
    rw [hpending]
    exact h.occupied
  case made =>
    intro name
    rw [hwaiters, hmade]
    exact h.made name
  case kept =>
    intro name
    rw [hwaiters, hcalls]
    exact h.kept name
  case placed =>
    intro k hk attempt
    rw [hwaiters]
    exact h.placed k (hcalls ▸ hk) attempt

theorem keep (h : c.Seated) (m : Message) : (c.keep m).Seated := by
  unfold CredentialClient.keep
  split
  · exact h.congr rfl rfl rfl
  · exact h

/-! ## A call goes on -/

theorem occupied_setWaiters (h : c.Seated) (name : String) (ts : List Ticket) :
    ∀ entry ∈ (c.setWaiters name ts).pending, entry.2 ≠ [] := by
  intro entry hentry
  unfold setWaiters at hentry
  dsimp only at hentry
  split at hentry
  · exact h.occupied entry (List.mem_filter.mp hentry).1
  · next hts =>
    rcases mem_setKey hentry with rfl | hentry
    · exact hts
    · exact h.occupied entry hentry

/-- One call goes on, and the places for its name change: its own are those that it keeps then, and
of the others only closed ones go. -/
theorem setCall (h : c.Seated) (hk : k ∈ c.calls) (hid : k'.id = k.id) (hname : k'.name = k.name)
    (hcalls : c₁.calls = c.calls) (hmade : c₁.made = c.made)
    (hoccupied : ∀ entry ∈ c₁.pending, entry.2 ≠ [])
    (hothers : ∀ other, other ≠ k.name → c₁.waiters other = c.waiters other)
    (hkept : ∀ t ∈ c₁.waiters k.name,
      t.call = k.id ∧ k'.Keeps t.attempt ∨ t.call ≠ k.id ∧ t ∈ c.waiters k.name)
    (hopen : ∀ t ∈ c.waiters k.name, t.call ≠ k.id → c.isOpen t = true → t ∈ c₁.waiters k.name)
    (hplaced : ∀ attempt, k'.Awaits attempt → ⟨k.id, attempt⟩ ∈ c₁.waiters k.name) :
    (c₁.setCall k').Seated := by
  -- a call is the changed one, or was there before and has another number
  have hmem : ∀ j, j ∈ (c₁.setCall k').calls ↔ j = k' ∨ j ∈ c.calls ∧ j.id ≠ k.id := by
    intro j
    rw [mem_setCall (hcalls ▸ hk) hid, hcalls]
  have hwaiters : ∀ name, (c₁.setCall k').waiters name = c₁.waiters name := fun _ => rfl
  constructor
  case ids =>
    rw [map_id_setCall, hcalls]
    show List.Sublist _ (List.range c₁.made)
    rw [hmade]
    exact h.ids
  case occupied =>
    exact hoccupied
  case made =>
    intro name t ht
    rw [hwaiters] at ht
    show t.call < c₁.made
    rw [hmade]
    by_cases hother : name = k.name
    · subst hother
      rcases hkept t ht with ⟨heq, -⟩ | ⟨-, ht⟩
      · rw [heq]
        exact h.id_lt hk
      · exact h.made _ t ht
    · rw [hothers name hother] at ht
      exact h.made name t ht
  case kept =>
    intro name t ht j hj hjt
    rw [hwaiters] at ht
    by_cases hother : name = k.name
    · subst hother
      rcases (hmem j).mp hj with rfl | ⟨hj, hne⟩
      · rcases hkept t ht with ⟨-, hkeeps⟩ | ⟨hne, -⟩
        · exact ⟨hname, hkeeps⟩
        · exact absurd (hjt.symm.trans hid) hne
      · rcases hkept t ht with ⟨heq, -⟩ | ⟨-, ht⟩
        · exact absurd (hjt.trans heq) hne
        · exact h.kept _ t ht j hj hjt
    · rw [hothers name hother] at ht
      rcases (hmem j).mp hj with rfl | ⟨hj, -⟩
      · -- the places of the call are all for its own name
        exact absurd (h.kept name t ht k hk (hid.symm.trans hjt)).1.symm hother
      · exact h.kept name t ht j hj hjt
  case placed =>
    intro j hj attempt hawaits
    rw [hwaiters]
    rcases (hmem j).mp hj with rfl | ⟨hj, hne⟩
    · rw [hid, hname]
      exact hplaced attempt hawaits
    · have ht := h.placed j hj attempt hawaits
      by_cases hother : j.name = k.name
      · rw [hother] at ht ⊢
        exact hopen _ ht hne (h.isOpen_of_awaits hj hawaits)
      · rw [hothers j.name hother]
        exact ht

/-- A call goes on and keeps the places that it has. -/
theorem setCall_self (h : c.Seated) (hk : k ∈ c.calls) (hid : k'.id = k.id)
    (hname : k'.name = k.name) (hkeeps : ∀ attempt, k.Keeps attempt → k'.Keeps attempt)
    (hawaits : ∀ attempt, k'.Awaits attempt → k.Awaits attempt) : (c.setCall k').Seated := by
  refine h.setCall hk hid hname rfl rfl h.occupied (fun _ _ => rfl) ?_ (fun _ ht _ _ => ht) ?_
  · intro t ht
    by_cases heq : t.call = k.id
    · exact .inl ⟨heq, hkeeps _ (h.kept _ t ht k hk heq.symm).2⟩
    · exact .inr ⟨heq, ht⟩
  · exact fun attempt h' => h.placed k hk attempt (hawaits attempt h')

/-- A call goes on after the closed places for its name were taken away, and perhaps takes a new
one. -/
theorem setCall_filter (h : c.Seated) (k' : Call) (hk : k ∈ c.calls) (hid : k'.id = k.id)
    (hname : k'.name = k.name) (hplace : k.place? = none) (own : List Ticket)
    (hown : ∀ t ∈ own, t.call = k.id ∧ k'.Keeps t.attempt)
    (hawaits : ∀ attempt, k'.Awaits attempt → ⟨k.id, attempt⟩ ∈ own) :
    ((c.setWaiters k.name ((c.waiters k.name).filter c.isOpen ++ own)).setCall k').Seated := by
  have hwaiters := c.waiters_setWaiters k.name ((c.waiters k.name).filter c.isOpen ++ own)
  refine h.setCall hk hid hname rfl rfl (h.occupied_setWaiters _ _)
    (fun other hother => waiters_setWaiters_of_ne hother c _) ?_ ?_ ?_
  · intro t ht
    rw [hwaiters, List.mem_append, List.mem_filter] at ht
    rcases ht with ⟨ht, hopen⟩ | ht
    · refine .inr ⟨fun heq => ?_, ht⟩
      -- a call that has no place holds none open
      unfold isOpen at hopen
      rw [heq, h.call?_eq hk] at hopen
      dsimp only at hopen
      rw [hplace] at hopen
      cases hopen
    · exact .inl (hown t ht)
  · intro t ht _ hopen
    rw [hwaiters]
    exact List.mem_append_left _ (List.mem_filter.mpr ⟨ht, hopen⟩)
  · intro attempt h'
    rw [hwaiters]
    exact List.mem_append_right _ (hawaits attempt h')

/-- The places stay those of the calls whatever step a call takes. -/
theorem stride (h : c.Seated) (hk : k ∈ c.calls) (hstride : c.Stride b k k' c' b') : c'.Seated := by
  cases hstride with
  | known stage | told stage =>
    refine h.setCall_self hk rfl rfl ?_ ?_
    · simp [Call.Keeps, Call.Awaits, stage]
    · simp [Call.Awaits]
  | unknown stage =>
    refine h.setCall_self hk rfl rfl ?_ fun attempt h' =>
      absurd h' ((attemptOr_cases k c k.name 1).1 attempt)
    simp [Call.Keeps, Call.Awaits, stage]
  | @lead attempt stage =>
    refine h.setCall_filter { k with stage := .send attempt none } hk rfl rfl
      (Call.place?_of_enlist stage) [⟨k.id, attempt⟩] ?_ ?_
    · simp [Call.Keeps, Call.Awaits]
    · simp [Call.Awaits]
  | @join attempt stage =>
    refine h.setCall_filter (c.beginWait k attempt none) hk rfl rfl
      (Call.place?_of_enlist stage) [⟨k.id, attempt⟩] ?_ ?_
    · simp [Call.Keeps, Call.Awaits, beginWait]
    · simp [Call.Awaits, beginWait]
  | asked stage =>
    refine h.setCall_self hk rfl rfl ?_ ?_
    · simp [Call.Keeps, Call.Awaits, beginWait, stage]
    · simp [Call.Awaits, beginWait, stage]
  | unasked stage | late stage =>
    refine h.setCall_self hk rfl rfl ?_ ?_
    · simp [Call.Keeps, Call.Awaits, stage]
    · simp [Call.Awaits]
  | struck stage gone =>
    -- a call that waits has its place
    exact absurd (h.placed k hk _ (.inr stage)) gone
  | @fail attempt e stage =>
    have hprune := h.setCall_filter { k with stage := .done (.error e) } hk rfl rfl
      (Call.place?_of_withdraw stage) [] (by simp) (by simp [Call.Awaits])
    rwa [List.append_nil] at hprune
  | @retry attempt stage =>
    have hprune := h.setCall_filter
      { k with stage := c.attemptOr k.name (attempt + 1) } hk rfl rfl
      (Call.place?_of_withdraw stage) [] (by simp)
      fun next h' => absurd h' ((attemptOr_cases k c k.name (attempt + 1)).1 next)
    rwa [List.append_nil] at hprune

/-! ## A value is told -/

/-- A value that is told to a name reaches the calls that wait for it, and no others. -/
theorem told_eq (h : c.Seated) (hk : k ∈ c.calls) (name value : String) :
    k.told value (c.waiters name) = if k.name = name then k.give value else k := by
  by_cases hname : k.name = name
  · subst hname
    rw [if_pos rfl]
    by_cases hawaits : ∃ attempt, k.Awaits attempt
    · obtain ⟨attempt, hawaits⟩ := hawaits
      rw [Call.told_of_mem hawaits (h.placed k hk attempt hawaits), hawaits.deliver_eq]
    · rw [Call.told_of_not_awaits fun t _ _ ht => hawaits ⟨t.attempt, ht⟩,
        Call.give_of_not_awaits fun attempt ht => hawaits ⟨attempt, ht⟩]
  · rw [if_neg hname]
    exact Call.told_of_not_awaits fun t ht hid _ => hname (h.kept name t ht k hk hid.symm).1

theorem calls_resolve (h : c.Seated) (name value : String) :
    (c.resolve name value).calls =
      c.calls.map fun k => if k.name = name then k.give value else k :=
  (deliver_eq_map value c.calls (c.waiters name)).trans
    (List.map_congr_left fun _ hk => h.told_eq hk name value)

theorem map_id_resolve (h : c.Seated) (name value : String) :
    (c.resolve name value).calls.map Call.id = c.calls.map Call.id := by
  rw [h.calls_resolve, List.map_map]
  refine List.map_congr_left fun k _ => ?_
  show (if k.name = name then k.give value else k).id = k.id
  split
  · exact k.give_id value
  · rfl

/-- The places stay those of the calls when a value is told. -/
theorem resolve (h : c.Seated) (name value : String) : (c.resolve name value).Seated := by
  -- only the places for other names are left
  have hleft : ∀ other, ∀ t ∈ (c.resolve name value).waiters other,
      other ≠ name ∧ t ∈ c.waiters other := by
    intro other t ht
    replace ht : t ∈ (c.setWaiters name []).waiters other := ht
    by_cases hother : other = name
    · subst hother
      rw [waiters_setWaiters] at ht
      cases ht
    · rw [waiters_setWaiters_of_ne hother] at ht
      exact ⟨hother, ht⟩
  refine ⟨h.map_id_resolve name value ▸ h.ids, h.occupied_setWaiters name [], ?_, ?_, ?_⟩
  · exact fun other t ht => h.made other t (hleft other t ht).2
  · intro other t ht k hk hid
    obtain ⟨hother, ht⟩ := hleft other t ht
    rw [h.calls_resolve] at hk
    obtain ⟨j, hj, rfl⟩ := List.mem_map.mp hk
    by_cases hname : j.name = name
    · rw [if_pos hname, j.give_id] at hid
      exact absurd ((h.kept other t ht j hj hid).1.symm.trans hname) hother
    · rw [if_neg hname] at hid ⊢
      exact h.kept other t ht j hj hid
  · intro k hk attempt hawaits
    rw [h.calls_resolve] at hk
    obtain ⟨j, hj, rfl⟩ := List.mem_map.mp hk
    by_cases hname : j.name = name
    · rw [if_pos hname] at hawaits
      exact (j.not_awaits_give value attempt hawaits).elim
    · rw [if_neg hname] at hawaits ⊢
      show _ ∈ (c.setWaiters name []).waiters j.name
      rw [waiters_setWaiters_of_ne hname]
      exact h.placed j hj attempt hawaits

/-! ## Nobody waits -/

/-- When every call made is still there and all have returned, there is no place in the table. -/
theorem pending_eq_nil (h : c.Seated) (hmade : c.calls.map Call.id = List.range c.made)
    (hdone : ∀ k ∈ c.calls, k.isDone = true) : c.pending = [] := by
  cases hpending : c.pending with
  | nil => rfl
  | cons entry rest =>
    have hentry : entry ∈ c.pending := hpending ▸ List.mem_cons_self
    obtain ⟨t, ht⟩ := List.exists_mem_of_ne_nil _ (h.occupied entry hentry)
    have hwaits : t ∈ c.waiters entry.1 := by
      unfold waiters
      rw [hpending, List.lookup_cons_self]
      exact ht
    -- the call of the place is still there, so it has not returned
    have hcall : t.call ∈ c.calls.map Call.id :=
      hmade ▸ List.mem_range.mpr (h.made entry.1 t hwaits)
    obtain ⟨k, hk, hid⟩ := List.mem_map.mp hcall
    have hgoing := (h.kept entry.1 t hwaits k hk hid).2.not_isDone
    rw [hdone k hk] at hgoing
    cases hgoing

end Seated

end Coordination.CredentialClient
