import Coordination.Proofs.Authority.Changes
import Coordination.Proofs.Credential.Interleaving
import Mathlib.Tactic.Ring
/-!
# How often a client asks

The first call that takes a place for a name asks the authority, and so does every call that takes a
place for a further attempt, whether or not others wait.  So the requests for a name are one for
each call that found nobody waiting, and one more for each repeated attempt of each call: with more
than one call they are more than the attempts of one.
-/

namespace Coordination

/-- The name of the credential for which a message asks. -/
def RawMessage.asksFor? (raw : RawMessage) : Option String :=
  (Message.ofRaw raw).data.bind fun data =>
    match data.get? "type", data.get? "credential_name" with
    | some (.string "credential_request"), some (.string name) => some name
    | _, _ => none

theorem RawMessage.asksFor?_request (topic timestamp agentId name : String) (jwk : Jwk) :
    (Message.ofData topic ((Event.credentialRequest agentId name jwk).toData
      timestamp)).toRaw.asksFor? = some name := by
  have hdata := Message.data_ofRaw topic timestamp (.credentialRequest agentId name jwk)
  have htype : ((Event.credentialRequest agentId name jwk).toData timestamp).get? "type" =
      some (.string "credential_request") := by
    rw [Event.get?_toData]
    rfl
  have hname : ((Event.credentialRequest agentId name jwk).toData timestamp).get?
      "credential_name" = some (.string name) := by
    rw [Event.get?_toData]
    rfl
  unfold asksFor?
  simp only [hdata, Option.bind_some, htype, hname]

namespace Call

/-! ## The requests of one call -/

/-- A request that the call decided on and did not make yet. -/
def owes (k : Call) : Nat :=
  match k.stage with
  | .send _ _ => 1
  | _ => 0

/-- The repeated attempts for which the call has taken a place, out of so many attempts. -/
def repeats (attempts : Nat) (k : Call) : Nat :=
  match k.stage with
  | .lookup => 0
  | .enlist attempt => attempt - 2
  | .send attempt _ | .wait attempt _ | .withdraw attempt _ => attempt - 1
  | .done _ => attempts - 1

/-- The call has taken its first place, or has returned. -/
def began (k : Call) : Nat :=
  match k.stage with
  | .lookup => 0
  | .enlist attempt => if 1 < attempt then 1 else 0
  | _ => 1

/-- The call does not go through all its attempts: a value came, or a request failed. -/
def Cut (k : Call) : Prop :=
  (∃ value, k.Holds value) ∨ ∃ e, k.Fails e ∧ e ≠ CredentialClient.unanswered k.name

/-- The attempt is one of those that the call may make, and if its request failed, the call is not
to return that nothing was found. -/
def Tries (attempts : Nat) (k : Call) : Prop :=
  match k.stage with
  | .enlist attempt | .send attempt _ | .wait attempt _ | .withdraw attempt none =>
    1 ≤ attempt ∧ attempt ≤ attempts
  | .withdraw attempt (some e) =>
    1 ≤ attempt ∧ attempt ≤ attempts ∧ e ≠ CredentialClient.unanswered k.name
  | _ => True

theorem began_le_one (k : Call) : k.began ≤ 1 := by
  unfold began
  split
  · exact Nat.zero_le 1
  · split <;> omega
  · exact Nat.le_refl 1

/-- A call that has a place has begun and not returned. -/
theorem began_of_place? {k : Call} {attempt : Nat} (h : k.place? = some attempt) :
    k.began = 1 ∧ ∀ result, k.stage ≠ .done result := by
  unfold place? at h
  split at h
  · next hstage => simp [began, hstage]
  · next hstage => simp [began, hstage]
  · cases h

/-- A value that comes to a call changes nothing in its account. -/
theorem give_account (k : Call) (value : String) (attempts : Nat) :
    (k.give value).owes = k.owes ∧ (k.give value).repeats attempts = k.repeats attempts ∧
      (k.give value).began = k.began ∧ (k.Tries attempts → (k.give value).Tries attempts) := by
  unfold give
  split
  · next hstage => simp [owes, repeats, began, Tries, hstage]
  · next hstage => simp [owes, repeats, began, Tries, hstage]
  · exact ⟨rfl, rfl, rfl, fun h => h⟩

theorem Cut.give {k : Call} (h : k.Cut) (value : String) : (k.give value).Cut := by
  unfold Call.give
  split
  · simp [Cut, Holds]
  · simp [Cut, Holds]
  · exact h

theorem stage_give_of_done {k : Call} {result : Except Error String} (h : k.stage = .done result)
    (value : String) : (k.give value).stage = .done result := by
  unfold give
  rw [h]
  exact h

theorem stage_of_result? {k : Call} {result : Except Error String} (h : k.result? = some result) :
    k.stage = .done result := by
  unfold result? at h
  split at h
  · next hstage => rw [hstage, Option.some.inj h]
  · cases h

end Call

namespace CredentialClient

variable {c c' : CredentialClient} {b b' : Bus} {k k' : Call} {name : String}

/-- A request that the transport accepts is published. -/
theorem request_ok (h : c.request b name = (.ok (), b')) :
    ∃ raw, raw.asksFor? = some name ∧ b'.published = b.published ++ [raw] := by
  have hasks := RawMessage.asksFor?_request c.topics.publishToAuthority (b.clock.stamp b.now)
    c.agentId name c.keys.jwk
  unfold request at h
  rcases b.publishEvent_cases _ _ with ⟨e, -, herror, -⟩ | ⟨-, htrace⟩
  · rw [h] at herror
    cases herror
  · rw [h] at htrace
    refine ⟨_, hasks, ?_⟩
    unfold Bus.published
    rw [htrace, List.filterMap_append]
    rfl

/-- A request that fails does not fail as one that was not answered. -/
theorem ne_unanswered_of_request {e : Error} (h : c.request b name = (.error e, b')) :
    e ≠ unanswered name := by
  rintro rfl
  rcases (request_error h).1 with heq | ⟨detail, heq⟩ <;> cases heq

/-! ## What one step changes -/

theorem Stride.tries (h : c.Stride b k k' c' b') (htries : k.Tries c.config.attempts) :
    k'.Tries c.config.attempts := by
  cases h with
  | unknown stage =>
    unfold attemptOr
    split
    · exact ⟨Nat.le_refl 1, by assumption⟩
    · trivial
  | retry stage =>
    unfold attemptOr
    split
    · exact ⟨Nat.le_add_left 1 _, by assumption⟩
    · trivial
  | @unasked _ _ e _ stage request =>
    -- a request that fails says why, and never that nobody answered
    simp only [Call.Tries, stage] at htries
    exact ⟨htries.1, htries.2, ne_unanswered_of_request request⟩
  | lead stage | join stage | asked stage | late stage =>
    simpa only [Call.Tries, beginWait, stage] using htries
  | _ => trivial

/-- A call that is cut off stays so. -/
theorem Stride.cut (h : c.Stride b k k' c' b') (hcut : k.Cut) : k'.Cut := by
  cases h with
  | known | told => simp [Call.Cut, Call.Holds]
  | asked stage =>
    simpa [Call.Cut, Call.Holds, Call.Fails, beginWait, stage] using hcut
  | unasked stage request =>
    simp [Call.Cut, Call.Fails, ne_unanswered_of_request request]
  | fail stage => simpa [Call.Cut, Call.Holds, Call.Fails, stage] using hcut
  | struck stage => simp [Call.Cut, Call.Fails, unanswered]
  | _ stage => simp [Call.Cut, Call.Holds, Call.Fails, stage] at hcut

/-- A call is the first of those who wait only when it takes its first place. -/
theorem opens_of_not_enlist (hstage : ∀ attempt, k.stage ≠ .enlist attempt) :
    c.opens k = false := by
  unfold opens
  split
  · next attempt heq => exact absurd heq (hstage attempt)
  · rfl

theorem opens_of_enlist {attempt : Nat} (hstage : k.stage = .enlist attempt) :
    c.opens k = true ↔ attempt ≤ 1 ∧ (c.waiters k.name).filter c.isOpen = [] := by
  unfold opens
  rw [hstage]
  simp

/-- What a call has asked and owes is what it has decided on: one request if it was the first of
those who wait, and one for each further attempt.  A call that is cut off leaves attempts out. -/
theorem Stride.account (h : c.Stride b k k' c' b') (htries : k.Tries c.config.attempts) :
    ∃ raws, b'.published = b.published ++ raws ∧ (∀ raw ∈ raws, raw.asksFor? = some k.name) ∧
      (raws.length + k'.owes + k.repeats c.config.attempts =
          (c.opens k).toNat + k'.repeats c.config.attempts + k.owes ∨
        k'.Cut ∧ raws.length + k'.owes + k.repeats c.config.attempts ≤
          (c.opens k).toNat + k'.repeats c.config.attempts + k.owes) := by
  have hopens : (∀ attempt, k.stage ≠ .enlist attempt) → (c.opens k).toNat = 0 :=
    fun hstage => congrArg Bool.toNat (opens_of_not_enlist hstage)
  cases h with
  | known stage | told stage | struck stage =>
    -- it leaves attempts out
    refine ⟨[], (List.append_nil _).symm, by simp, .inr ⟨?_, ?_⟩⟩
    · simp [Call.Cut, Call.Holds, Call.Fails, unanswered]
    · simp only [Call.Tries, stage] at htries
      simp only [Call.owes, Call.repeats, stage, List.length_nil]
      omega
  | fail stage =>
    simp only [Call.Tries, stage] at htries
    refine ⟨[], (List.append_nil _).symm, by simp, .inr ⟨?_, ?_⟩⟩
    · simp [Call.Cut, Call.Fails, htries.2.2]
    · simp only [Call.owes, Call.repeats, stage, List.length_nil]
      omega
  | unknown stage =>
    refine ⟨[], (List.append_nil _).symm, by simp, .inl ?_⟩
    specialize hopens (by simp [stage])
    unfold attemptOr
    split <;> simp only [Call.owes, Call.repeats, stage, List.length_nil] <;> omega
  | retry stage =>
    refine ⟨[], (List.append_nil _).symm, by simp, .inl ?_⟩
    specialize hopens (by simp [stage])
    simp only [Call.Tries, stage] at htries
    unfold attemptOr
    split <;> simp only [Call.owes, Call.repeats, stage, List.length_nil] <;> omega
  | late stage =>
    refine ⟨[], (List.append_nil _).symm, by simp, .inl ?_⟩
    specialize hopens (by simp [stage])
    simp only [Call.owes, Call.repeats, stage, List.length_nil]
    omega
  | @lead attempt stage asks =>
    refine ⟨[], (List.append_nil _).symm, by simp, .inl ?_⟩
    simp only [Call.Tries, stage] at htries
    simp only [Call.owes, Call.repeats, stage, List.length_nil]
    by_cases hfirst : attempt ≤ 1
    · have hlead := (opens_of_enlist stage).mpr ⟨hfirst, asks.resolve_right (by omega)⟩
      rw [hlead, Bool.toNat_true]
      omega
    · have hlead : c.opens k = false :=
        Bool.eq_false_iff.mpr fun h => hfirst ((opens_of_enlist stage).mp h).1
      rw [hlead, Bool.toNat_false]
      omega
  | join stage company first =>
    refine ⟨[], (List.append_nil _).symm, by simp, .inl ?_⟩
    have hlead : c.opens k = false :=
      Bool.eq_false_iff.mpr fun h => company ((opens_of_enlist stage).mp h).2
    simp only [Call.owes, Call.repeats, beginWait, stage, List.length_nil, hlead, Bool.toNat_false]
    omega
  | asked stage request =>
    obtain ⟨raw, hraw, hpublished⟩ := request_ok request
    refine ⟨[raw], hpublished, List.forall_mem_singleton.mpr hraw, .inl ?_⟩
    specialize hopens (by simp [stage])
    simp only [Call.owes, Call.repeats, beginWait, stage, List.length_singleton]
    omega
  | unasked stage request =>
    refine ⟨[], by rw [(request_error request).2, List.append_nil], by simp, .inr ⟨?_, ?_⟩⟩
    · simp [Call.Cut, Call.Fails, ne_unanswered_of_request request]
    · simp only [Call.owes, Call.repeats, stage, List.length_nil]
      omega

/-- The first of those who wait had not begun before, and has afterwards. -/
theorem Stride.begun (h : c.Stride b k k' c' b') (htries : k.Tries c.config.attempts) :
    (c.opens k).toNat + k.began ≤ k'.began := by
  by_cases hopens : c.opens k = true
  · cases h with
    | lead stage | join stage =>
      have hfirst := ((opens_of_enlist stage).mp hopens).1
      simp [Call.began, beginWait, stage, hopens, Nat.not_lt.mpr hfirst]
    | _ stage =>
      rw [opens_of_not_enlist (by simp [stage])] at hopens
      cases hopens
  · rw [Bool.eq_false_iff.mpr hopens, Bool.toNat_false, Nat.zero_add]
    cases h with
    | unknown stage => simp [Call.began, stage]
    | retry stage =>
      simp only [Call.Tries, stage] at htries
      refine Nat.le_trans k.began_le_one (Nat.le_of_eq (Eq.symm ?_))
      unfold attemptOr
      split
      · exact if_pos (Nat.lt_succ_of_le htries.1)
      · rfl
    | _ => exact k.began_le_one

/-- Whoever begins is the first of those who wait, or does not wait alone. -/
theorem Stride.led (h : c.Stride b k k' c' b') (hbegan : k'.began = 1)
    (hvalue : ∀ value, k'.stage ≠ .done (.ok value)) (hattempts : 0 < c.config.attempts) :
    k.began = 1 ∨ c.opens k = true ∨ ∃ t ∈ c.waiters k.name, c.isOpen t = true := by
  cases h with
  | known => exact absurd rfl (hvalue _)
  | unknown =>
    unfold attemptOr at hbegan
    rw [if_pos (Nat.succ_le_of_lt hattempts)] at hbegan
    cases hbegan
  | @lead attempt stage asks =>
    -- the first attempt opens the name; a later one comes after one that has begun
    by_cases hfirst : attempt ≤ 1
    · exact .inr (.inl ((opens_of_enlist stage).mpr ⟨hfirst, asks.resolve_right (by omega)⟩))
    · refine .inl ?_
      simp only [Call.began, stage]
      exact if_pos (by omega)
  | join stage company =>
    obtain ⟨t, ht⟩ := List.exists_mem_of_ne_nil _ company
    exact .inr (.inr ⟨t, List.mem_filter.mp ht⟩)
  | _ stage => exact .inl (by simp only [Call.began, stage])

/-! ## All calls for a name -/

/-- A number for each call for a name, added up. -/
def sumFor (c : CredentialClient) (name : String) (f : Call → Nat) : Nat :=
  (c.calls.map fun k => if k.name = name then f k else 0).sum

/-- One number for all calls for a name. -/
theorem sumFor_const {f : Call → Nat} {m : Nat}
    (hf : ∀ k ∈ c.calls, k.name = name → f k = m) :
    c.sumFor name f = (c.calls.filter fun k => k.name = name).length * m := by
  unfold sumFor
  generalize c.calls = calls at hf
  induction calls with
  | nil => simp
  | cons k rest ih =>
    obtain ⟨hk, hrest⟩ := List.forall_mem_cons.mp hf
    rw [List.map_cons, List.sum_cons, ih hrest]
    by_cases hname : k.name = name
    · rw [if_pos hname, hk hname, List.filter_cons_of_pos (by simpa using hname),
        List.length_cons, Nat.succ_mul, Nat.add_comm]
    · rw [if_neg hname, List.filter_cons_of_neg (by simpa using hname), Nat.zero_add]

/-- Setting a call exchanges its number. -/
theorem sum_map_set {calls : List Call} (hnodup : (calls.map Call.id).Nodup) (hk : k ∈ calls)
    (hid : k'.id = k.id) (g : Call → Nat) :
    ((calls.map fun j => if j.id = k'.id then k' else j).map g).sum + g k =
      (calls.map g).sum + g k' := by
  induction calls with
  | nil => cases hk
  | cons j rest ih =>
    rw [List.map_cons, List.nodup_cons] at hnodup
    simp only [List.map_cons, List.sum_cons]
    rcases List.mem_cons.mp hk with rfl | hk
    -- the ids differ, so that the change touches one summand only
    · have hself : rest.map (fun j => if j.id = k'.id then k' else j) = rest := by
        refine (List.map_congr_left fun j hj => if_neg fun heq => ?_).trans (List.map_id' rest)
        exact hnodup.1 (List.mem_map.mpr ⟨j, hj, heq.trans hid⟩)
      rw [if_pos hid.symm, hself]
      omega
    · have hne : j.id ≠ k'.id :=
        fun heq => hnodup.1 (List.mem_map.mpr ⟨k, hk, (heq.trans hid).symm⟩)
      have hrest := ih hnodup.2 hk
      rw [if_neg hne]
      omega

theorem sumFor_stride (hseated : c.Seated) (hk : k ∈ c.calls) (h : c.Stride b k k' c' b')
    (name : String) (f : Call → Nat) :
    c'.sumFor name f + (if k.name = name then f k else 0) =
      c.sumFor name f + (if k.name = name then f k' else 0) := by
  have hsum := sum_map_set (hseated.ids.nodup List.nodup_range) hk h.id_eq
    fun k => if k.name = name then f k else 0
  rw [h.name_eq] at hsum
  unfold sumFor
  rw [h.calls_eq]
  exact hsum

/-- A place that is open belongs to a call that waits. -/
theorem Seated.exists_of_isOpen {t : Ticket} (h : c.Seated) (ht : t ∈ c.waiters name)
    (hopen : c.isOpen t = true) :
    ∃ j ∈ c.calls, j.name = name ∧ j.place? = some t.attempt := by
  unfold isOpen at hopen
  split at hopen
  · next j hcall =>
    obtain ⟨hj, hid⟩ := mem_of_call? hcall
    exact ⟨j, hj, (h.kept name t ht j hj hid).1, beq_iff_eq.mp hopen⟩
  · cases hopen

end CredentialClient

namespace Interleaving

open CredentialClient (unanswered)

variable {s s' : Interleaving} {action : Action} {topics : Generator} {keys : KeyPair}
  {config : ClientConfig} {bus : Bus} {name : String}

/-- How many requests for a name the client has published. -/
def requests (s : Interleaving) (name : String) : Nat :=
  (s.sent.filterMap RawMessage.asksFor?).count name

def callsFor (s : Interleaving) (name : String) : Nat :=
  (s.client.calls.filter fun k => k.name = name).length

/-- When every call for a name has returned, all its requests were made. -/
theorem sums_of_done (attempts : Nat)
    (hdone : ∀ k ∈ s.client.calls, k.name = name → ∃ result, k.stage = .done result) :
    s.client.sumFor name Call.owes = 0 ∧
      s.client.sumFor name (Call.repeats attempts) = s.callsFor name * (attempts - 1) ∧
      s.client.sumFor name Call.began = s.callsFor name := by
  refine ⟨(CredentialClient.sumFor_const fun k hk hname => ?_).trans (Nat.mul_zero _),
    CredentialClient.sumFor_const fun k hk hname => ?_,
    (CredentialClient.sumFor_const fun k hk hname => ?_).trans (Nat.mul_one _)⟩
  · obtain ⟨result, hstage⟩ := hdone k hk hname
    simp only [Call.owes, hstage]
  · obtain ⟨result, hstage⟩ := hdone k hk hname
    simp only [Call.repeats, hstage]
  · obtain ⟨result, hstage⟩ := hdone k hk hname
    simp only [Call.began, hstage]

/-- The account of the requests for a name. -/
structure Tally (s : Interleaving) (name : String) : Prop where
  tries : ∀ k ∈ s.client.calls, k.Tries s.client.config.attempts
  atMost : s.requests name + s.client.sumFor name Call.owes ≤
    s.openers.count name + s.client.sumFor name (Call.repeats s.client.config.attempts)
  exactly : (∀ k ∈ s.client.calls, k.name = name → ¬ k.Cut) →
    s.requests name + s.client.sumFor name Call.owes =
      s.openers.count name + s.client.sumFor name (Call.repeats s.client.config.attempts)
  begun : s.openers.count name ≤ s.client.sumFor name Call.began
  led : 0 < s.client.config.attempts → ∀ k ∈ s.client.calls, k.name = name → k.began = 1 →
    (∀ value, k.stage ≠ .done (.ok value)) → 0 < s.openers.count name

theorem tally_start (topics : Generator) (keys : KeyPair) (config : ClientConfig) (bus : Bus)
    (name : String) : (start topics keys config bus).Tally name := by
  constructor
  · simp [start]
  · simp [start, requests, CredentialClient.sumFor]
  · simp [start, requests, CredentialClient.sumFor]
  · simp [start]
  · simp [start]

/-- The account stays what it is when nothing is published and the calls stand as before. -/
theorem Tally.transfer (h : s.Tally name) (hconfig : s'.client.config = s.client.config)
    (hsent : s'.sent = s.sent) (hopeners : s'.openers = s.openers)
    (howes : s'.client.sumFor name Call.owes = s.client.sumFor name Call.owes)
    (hrepeats : s'.client.sumFor name (Call.repeats s.client.config.attempts) =
      s.client.sumFor name (Call.repeats s.client.config.attempts))
    (hbegan : s'.client.sumFor name Call.began = s.client.sumFor name Call.began)
    (htries : ∀ k ∈ s'.client.calls, k.Tries s.client.config.attempts)
    (hcut : ∀ k ∈ s.client.calls, k.name = name → k.Cut →
      ∃ k' ∈ s'.client.calls, k'.name = name ∧ k'.Cut)
    (hled : ∀ k' ∈ s'.client.calls, k'.name = name → k'.began = 1 →
      (∀ value, k'.stage ≠ .done (.ok value)) →
      ∃ k ∈ s.client.calls, k.name = name ∧ k.began = 1 ∧ ∀ value, k.stage ≠ .done (.ok value)) :
    s'.Tally name := by
  -- each part of the account is made of the sums, of what was sent and of who opened
  constructor
  case tries =>
    rw [hconfig]
    exact htries
  case atMost =>
    unfold requests
    rw [hconfig, howes, hrepeats, hsent, hopeners]
    exact h.atMost
  case exactly =>
    intro hnone
    unfold requests
    rw [hconfig, howes, hrepeats, hsent, hopeners]
    refine h.exactly fun k hk hname hkcut => ?_
    obtain ⟨k', hk', hname', hcut'⟩ := hcut k hk hname hkcut
    exact hnone k' hk' hname' hcut'
  case begun =>
    rw [hbegan, hopeners]
    exact h.begun
  case led =>
    intro hattempts k' hk' hname' hbegan' hvalue'
    obtain ⟨k, hk, hname, hkbegan, hvalue⟩ := hled k' hk' hname' hbegan' hvalue'
    rw [hopeners]
    exact h.led (hconfig ▸ hattempts) k hk hname hkbegan hvalue

/-- The account depends on the calls and on what was published. -/
theorem Tally.congr (h : s.Tally name) (hcalls : s'.client.calls = s.client.calls)
    (hconfig : s'.client.config = s.client.config) (hsent : s'.sent = s.sent)
    (hopeners : s'.openers = s.openers) : s'.Tally name := by
  have hsum : ∀ f, s'.client.sumFor name f = s.client.sumFor name f := by
    intro f
    unfold CredentialClient.sumFor
    rw [hcalls]
  refine h.transfer hconfig hsent hopeners (hsum _) (hsum _) (hsum _) ?_ ?_ ?_ <;> rw [hcalls]
  · exact h.tries
  · exact fun k hk hname hcut => ⟨k, hk, hname, hcut⟩
  · exact fun k hk hname hbegan hvalue => ⟨k, hk, hname, hbegan, hvalue⟩

theorem Tally.ask (h : s.Tally name) (other : String) :
    Tally { s with client := s.client.ask other } name := by
  -- a new call has made no request and none of its attempts has begun
  have hsum : ∀ f : Call → Nat, f { id := s.client.made, name := other } = 0 →
      (s.client.ask other).sumFor name f = s.client.sumFor name f := by
    intro f hf
    unfold CredentialClient.sumFor CredentialClient.ask
    simp [hf]
  refine h.transfer rfl rfl rfl (hsum _ rfl) (hsum _ rfl) (hsum _ rfl) ?_ ?_ ?_
  · intro k hk
    rcases List.mem_append.mp hk with hk | hk
    · exact h.tries k hk
    · rw [List.mem_singleton.mp hk]
      trivial
  · exact fun k hk hname hcut => ⟨k, List.mem_append_left _ hk, hname, hcut⟩
  · intro k hk hname hbegan hvalue
    rcases List.mem_append.mp hk with hk | hk
    · exact ⟨k, hk, hname, hbegan, hvalue⟩
    · rw [List.mem_singleton.mp hk] at hbegan
      cases hbegan

/-- A value that is told changes nothing in the account. -/
theorem Tally.tellAt (h : s.Tally name) (hseated : s.client.Seated) {place : Nat}
    {client : CredentialClient} (htell : s.client.tellAt place = some client) :
    Tally { s with client } name := by
  obtain ⟨other, value, -, rfl⟩ := CredentialClient.tellAt_cases htell
  -- each call is as before, or was given the value
  obtain ⟨given, hcalls, hgiven⟩ : ∃ given : Call → Call,
      (CredentialClient.resolve { s.client with untold := s.client.untold.eraseIdx place }
        other value).calls = s.client.calls.map given ∧
      ∀ k, given k = k ∨ given k = k.give value := by
    refine ⟨_, (hseated.eraseUntold place).calls_resolve other value, fun k => ?_⟩
    split
    · exact .inr rfl
    · exact .inl rfl
  have hname : ∀ k, (given k).name = k.name := fun k =>
    (hgiven k).elim (fun heq => by rw [heq]) fun heq => by rw [heq, k.give_name]
  have hsum : ∀ f : Call → Nat, (∀ k : Call, f (k.give value) = f k) →
      CredentialClient.sumFor (CredentialClient.resolve
        { s.client with untold := s.client.untold.eraseIdx place } other value) name f =
      s.client.sumFor name f := by
    intro f hf
    have hnumber : ∀ k, f (given k) = f k := fun k =>
      (hgiven k).elim (fun heq => by rw [heq]) fun heq => by rw [heq, hf]
    unfold CredentialClient.sumFor
    rw [hcalls, List.map_map]
    refine congrArg List.sum (List.map_congr_left fun k _ => ?_)
    simp only [Function.comp_apply, hname, hnumber]
  refine h.transfer rfl rfl rfl (hsum _ fun k => (k.give_account value 0).1)
    (hsum _ fun k => (k.give_account value _).2.1) (hsum _ fun k => (k.give_account value 0).2.2.1)
    ?_ ?_ ?_ <;> rw [hcalls]
  · rw [List.forall_mem_map]
    intro k hk
    rcases hgiven k with heq | heq <;> rw [heq]
    · exact h.tries k hk
    · exact (k.give_account value _).2.2.2 (h.tries k hk)
  · intro k hk hkname hcut
    refine ⟨given k, List.mem_map_of_mem hk, (hname k).trans hkname, ?_⟩
    rcases hgiven k with heq | heq <;> rw [heq]
    · exact hcut
    · exact hcut.give value
  · rw [List.forall_mem_map]
    intro k hk hkname hbegan hvalue
    refine ⟨k, hk, (hname k).symm.trans hkname, ?_, fun result hstage => hvalue result ?_⟩
    · rcases hgiven k with heq | heq <;> rw [heq] at hbegan
      · exact hbegan
      · exact (k.give_account value 0).2.2.1.symm.trans hbegan
    · rcases hgiven k with heq | heq <;> rw [heq]
      · exact hstage
      · exact Call.stage_give_of_done hstage value

/-- What was published asks for one name. -/
theorem count_filterMap_append (sent : List RawMessage) {raws : List RawMessage} {other : String}
    (hraws : ∀ raw ∈ raws, raw.asksFor? = some other) (name : String) :
    ((sent ++ raws).filterMap RawMessage.asksFor?).count name =
      (sent.filterMap RawMessage.asksFor?).count name +
        if other = name then raws.length else 0 := by
  have hall : raws.filterMap RawMessage.asksFor? = List.replicate raws.length other := by
    induction raws with
    | nil => rfl
    | cons raw rest ih =>
      obtain ⟨hraw, hrest⟩ := List.forall_mem_cons.mp hraws
      rw [List.filterMap_cons_some hraw, ih hrest]
      rfl
  rw [List.filterMap_append, List.count_append, hall, List.count_replicate]
  simp only [beq_iff_eq]

theorem Tally.stride (h : s.Tally name) (hseated : s.client.Seated) {k k' : Call}
    {client : CredentialClient} {bus' : Bus} (hk : k ∈ s.client.calls)
    (hstride : s.client.Stride s.bus k k' client bus') :
    Tally { s with
      client
      bus := bus'
      sent := s.sent ++ bus'.published.drop s.bus.published.length
      openers := s.openers ++ if s.client.opens k then [k.name] else [] } name := by
  have htries := h.tries k hk
  obtain ⟨raws, hpublished, hasks, haccount⟩ := hstride.account htries
  have hconfig : client.config = s.client.config := by rw [hstride.frame]
  have hmem : ∀ j, j ∈ client.calls ↔ j = k' ∨ j ∈ s.client.calls ∧ j.id ≠ k.id := by
    intro j
    rw [hstride.calls_eq, CredentialClient.mem_setCall hk hstride.id_eq]
  have hrequests := count_filterMap_append s.sent hasks name
  have hopeners : (s.openers ++ if s.client.opens k then [k.name] else []).count name =
      s.openers.count name + if k.name = name then (s.client.opens k).toNat else 0 := by
    rw [List.count_append]
    cases s.client.opens k <;> simp [List.count_singleton]
  have howes := CredentialClient.sumFor_stride hseated hk hstride name Call.owes
  have hrepeats := CredentialClient.sumFor_stride hseated hk hstride name
    (Call.repeats s.client.config.attempts)
  have hbegan := CredentialClient.sumFor_stride hseated hk hstride name Call.began
  have hdrop : bus'.published.drop s.bus.published.length = raws := by
    rw [hpublished, List.drop_left]
  have hold := h.atMost
  have hbegun := h.begun
  unfold requests at hold
  constructor
  case tries =>
    intro j hj
    show j.Tries client.config.attempts
    rw [hconfig]
    rcases (hmem j).mp hj with rfl | ⟨hj, -⟩
    · exact hstride.tries htries
    · exact h.tries j hj
  case atMost =>
    unfold requests
    simp only [hdrop, hrequests, hopeners, hconfig]
    -- the sums change only if the call is for the name, and then by what it did
    by_cases hname : k.name = name
    · simp only [if_pos hname] at howes hrepeats ⊢
      omega
    · simp only [if_neg hname] at howes hrepeats ⊢
      omega
  case exactly =>
    intro hcut
    -- whoever was cut off before is so still
    have hexactly := h.exactly fun j hj hjname hjcut => by
      by_cases hid : j.id = k.id
      · obtain rfl := hseated.eq_of_id hk hj hid
        exact hcut k' ((hmem k').mpr (.inl rfl)) (hstride.name_eq.trans hjname) (hstride.cut hjcut)
      · exact hcut j ((hmem j).mpr (.inr ⟨hj, hid⟩)) hjname hjcut
    unfold requests at hexactly ⊢
    simp only [hdrop, hrequests, hopeners, hconfig]
    by_cases hname : k.name = name
    · have hnot := hcut k' ((hmem k').mpr (.inl rfl)) (hstride.name_eq.trans hname)
      have heq := haccount.resolve_right fun h => hnot h.1
      simp only [if_pos hname] at howes hrepeats ⊢
      omega
    · simp only [if_neg hname] at howes hrepeats ⊢
      omega
  case begun =>
    show (s.openers ++ _).count name ≤ client.sumFor name Call.began
    have hfirst := hstride.begun htries
    rw [hopeners]
    by_cases hname : k.name = name
    · simp only [if_pos hname] at hbegan ⊢
      omega
    · simp only [if_neg hname] at hbegan ⊢
      omega
  case led =>
    intro hattempts j hj hjname hjbegan hvalue
    replace hattempts : 0 < client.config.attempts := hattempts
    rw [hconfig] at hattempts
    show 0 < (s.openers ++ _).count name
    rw [hopeners]
    rcases (hmem j).mp hj with rfl | ⟨hj, -⟩
    · have hname := hstride.name_eq.symm.trans hjname
      rw [if_pos hname]
      rcases hstride.led hjbegan hvalue hattempts with hbefore | hfirst | ⟨t, ht, hopen⟩
      · have hled := h.led hattempts k hk hname hbefore fun value => hstride.not_done _
        omega
      · rw [hfirst, Bool.toNat_true]
        omega
      · -- someone waits for the name already
        obtain ⟨i, hi, hiname, hplace⟩ := hseated.exists_of_isOpen ht hopen
        obtain ⟨hibegan, hidone⟩ := Call.began_of_place? hplace
        have hled := h.led hattempts i hi (hiname.trans hname) hibegan fun value => hidone _
        omega
    · have hled := h.led hattempts j hj hjname hjbegan hvalue
      omega

/-- Every action keeps the account, as long as no call is given up. -/
theorem Tally.act (h : s.Tally name) (hsound : s.Sound) (hact : s.act action = some s')
    (hdropped : s'.dropped = []) : s'.Tally name := by
  cases action with
  | ask other =>
    cases hact
    exact h.ask other
  | call id =>
    obtain ⟨k, hk, -, k', client, bus, hstride, rfl⟩ := stride_of_act_call hact
    exact h.stride hsound.seated hk hstride
  -- nobody is given up in such a run
  | drop id =>
    obtain ⟨k, -, -, rfl⟩ := act_drop_cases hact
    exact absurd hdropped (List.append_ne_nil_of_right_ne_nil _ (List.cons_ne_nil _ _))
  | keep m =>
    cases hact
    have hframe := s.client.keep_frame m
    refine h.congr ?_ ?_ rfl rfl
    · show (s.client.keep m).calls = s.client.calls
      rw [hframe]
    · show (s.client.keep m).config = s.client.config
      rw [hframe]
  | tell place =>
    obtain ⟨client, htell, rfl⟩ := act_tell_cases hact
    exact h.tellAt hsound.seated htell
  | pass millis =>
    cases hact
    exact h.congr rfl rfl rfl rfl
  | rewire bus =>
    cases hact
    exact h.congr rfl rfl rfl rfl

theorem Leads.tally (h : (start topics keys config bus).Leads s) (hdropped : s.dropped = [])
    (name : String) : s.Tally name := by
  induction h with
  | refl => exact tally_start topics keys config bus name
  | tail hleads hstep ih =>
    obtain ⟨action, hact⟩ := hstep
    have hbefore := List.eq_nil_of_subset_nil (hdropped ▸ (extends_of_act hact).dropped)
    exact (ih hbefore).act (Leads.sound hleads) hact hdropped

section Returned

variable (h : (start topics keys config bus).Leads s) (hdropped : s.dropped = [])
include h hdropped

/-- A call that asks is the first of those who wait, or repeats its request. -/
theorem Leads.requests_le
    (hdone : ∀ k ∈ s.client.calls, k.name = name → ∃ result, k.stage = .done result) :
    s.openers.count name ≤ s.callsFor name ∧
      s.requests name ≤ s.openers.count name + s.callsFor name * (config.attempts - 1) := by
  have htally := h.tally hdropped name
  obtain ⟨howes, hrepeats, hbegan⟩ := sums_of_done s.client.config.attempts hdone
  have hbegun := htally.begun
  have hmost := htally.atMost
  rw [hbegan] at hbegun
  rw [howes, hrepeats, h.extends.config] at hmost
  exact ⟨hbegun, hmost⟩

/-- Calls that nobody answers ask as often as they can. -/
theorem Leads.requests_eq
    (hunanswered : ∀ k ∈ s.client.calls, k.name = name →
      k.stage = .done (.error (unanswered name))) :
    s.requests name = s.openers.count name + s.callsFor name * (config.attempts - 1) := by
  have hexactly := (h.tally hdropped name).exactly fun k hk hname => by
    simp [Call.Cut, Call.Holds, Call.Fails, hunanswered k hk hname, hname]
  obtain ⟨howes, hrepeats, -⟩ := sums_of_done s.client.config.attempts
    fun k hk hname => ⟨_, hunanswered k hk hname⟩
  rwa [howes, hrepeats, h.extends.config] at hexactly

/-- Somebody was the first. -/
theorem Leads.openers_pos (hattempts : 0 < config.attempts) (hcalls : 0 < s.callsFor name)
    (hunanswered : ∀ k ∈ s.client.calls, k.name = name →
      k.stage = .done (.error (unanswered name))) :
    0 < s.openers.count name := by
  obtain ⟨k, hk⟩ := List.exists_mem_of_ne_nil _ (List.ne_nil_of_length_pos hcalls)
  obtain ⟨hk, hname⟩ := List.mem_filter.mp hk
  replace hname := of_decide_eq_true hname
  have hstage := hunanswered k hk hname
  refine (h.tally hdropped name).led ?_ k hk hname ?_ ?_
  · rw [h.extends.config]
    exact hattempts
  · simp only [Call.began, hstage]
  · intro value hvalue
    cases hstage.symm.trans hvalue

/-- **Every call repeats its request for itself.**  In a run in which no call is given up, let all
calls for a name have returned.  The requests for the name are at most one for each call that found
nobody waiting and one for each further attempt of each call.  If no call was answered and none
failed, there are exactly so many; so they are no more than the attempts of one call only if there
was but one call, or if each call makes one attempt and only one call found nobody waiting. -/
theorem requests_of_returned
    (hdone : ∀ k ∈ s.client.calls, k.name = name → ∃ result, k.stage = .done result) :
    s.openers.count name ≤ s.callsFor name ∧
    s.requests name ≤ s.openers.count name + s.callsFor name * (config.attempts - 1) ∧
    ((∀ k ∈ s.client.calls, k.name = name → k.stage = .done (.error (unanswered name))) →
      s.requests name = s.openers.count name + s.callsFor name * (config.attempts - 1) ∧
      (0 < config.attempts → 0 < s.callsFor name →
        (s.requests name ≤ config.attempts ↔
          s.callsFor name = 1 ∨ config.attempts = 1 ∧ s.openers.count name = 1))) := by
  obtain ⟨hbegun, hmost⟩ := h.requests_le hdropped hdone
  refine ⟨hbegun, hmost, fun hunanswered => ?_⟩
  have hexactly := h.requests_eq hdropped hunanswered
  refine ⟨hexactly, fun hattempts hcalls => ?_⟩
  have hled := h.openers_pos hdropped hattempts hcalls hunanswered
  -- both directions are arithmetic once the counts are exact
  constructor
  · intro hfew
    by_cases hsole : s.callsFor name = 1
    · exact .inl hsole
    · -- two calls repeat each attempt twice
      have htwice : 2 * (config.attempts - 1) ≤ s.callsFor name * (config.attempts - 1) :=
        Nat.mul_le_mul_right _ (by omega)
      exact .inr (by omega)
  · rintro (hsole | ⟨honce, hfirst⟩)
    · rw [hsole, Nat.one_mul] at hexactly
      omega
    · rw [honce, Nat.sub_self, Nat.mul_zero] at hexactly
      omega

end Returned

/-- A second call comes just when the first has run out of time, and asks too.  Nobody answers, and
with three attempts each the two calls make six requests. -/
theorem requests_of_returned_late_call :
    let keys := PublicKey.keyPair ⟨Nat.pow 2 1023 + 1, Cipher.usualExponent⟩
    ∃ s, (start ⟨"auth", "agent 1"⟩ keys {} { connected := true }).run
          [.ask "n", .call 0, .call 0, .call 0, .pass 10000, .call 0,
            .ask "n", .call 1, .call 1, .call 1, .call 0, .call 0, .call 0,
            .pass 10000, .call 0, .call 0, .call 0, .call 0, .call 1, .call 1, .call 1, .call 1,
            .pass 10000, .call 0, .call 0, .call 1, .call 1, .call 1, .call 1,
            .pass 10000, .call 1, .call 1] = some s ∧
      s.openers = ["n", "n"] ∧ s.callsFor "n" = 2 ∧ s.requests "n" = 6 ∧
      ¬ s.requests "n" ≤ 3 := by
  refine exists_run (f := fun s => (s.dropped, s.openers, s.callsFor "n", s.client.calls.all
    fun k => k.result? = some (.error (unanswered "n")))) (y := ([], ["n", "n"], 2, true))
    (by decide +kernel) fun s hleads hfacts => ?_
  simp only [Prod.mk.injEq, List.all_eq_true, decide_eq_true_eq] at hfacts
  obtain ⟨hdropped, hopeners, hcalls, hresults⟩ := hfacts
  have hstage : ∀ k ∈ s.client.calls, k.name = "n" → k.stage = .done (.error (unanswered "n")) :=
    fun k hk _ => Call.stage_of_result? (hresults k hk)
  have hdone : ∀ k ∈ s.client.calls, k.name = "n" → ∃ result, k.stage = .done result :=
    fun k hk hname => ⟨_, hstage k hk hname⟩
  obtain ⟨-, -, hexactly⟩ := requests_of_returned hleads hdropped hdone
  obtain ⟨hrequests, hfew⟩ := hexactly hstage
  rw [hopeners, hcalls] at hrequests hfew
  refine ⟨hopeners, hcalls, hrequests, fun h => ?_⟩
  simpa using (hfew (by decide) (by decide)).mp h

/-- A second call joins the first, and nobody answers.  They make two attempts each, and between
them three requests. -/
theorem more_requests_than_attempts :
    let keys := PublicKey.keyPair ⟨Nat.pow 2 1023 + 1, Cipher.usualExponent⟩
    let begin := start ⟨"auth", "a1"⟩ keys
      { timeout := 100, attempts := 2 } { connected := true }
    let before : List Action :=
      [.ask "n", .call 0, .call 0, .call 0, .pass 60, .ask "n", .call 1, .call 1]
    (begin.run before).map (fun s => s.client.calls.map Call.isDone) = some [false, false] ∧
    ∃ s, begin.run (before ++ [.pass 50, .call 0, .call 0, .call 0, .call 0,
        .pass 60, .call 1, .call 1, .call 1, .call 1,
        .pass 50, .call 0, .call 0, .pass 60, .call 1, .call 1]) = some s ∧
      s.callsFor "n" = 2 ∧ (∀ k ∈ s.client.calls, k.isDone = true) ∧ s.handled = [] ∧
      s.dropped = [] ∧ s.requests "n" = 3 ∧ ¬ s.requests "n" ≤ begin.client.config.attempts := by
  refine ⟨by decide +kernel, exists_run (f := fun s => (s.dropped, s.openers, s.callsFor "n",
    s.handled.length, s.client.calls.all fun k => k.result? = some (.error (unanswered "n"))))
    (y := ([], ["n"], 2, 0, true)) (by decide +kernel) fun s hleads hfacts => ?_⟩
  simp only [Prod.mk.injEq, List.all_eq_true, decide_eq_true_eq] at hfacts
  obtain ⟨hdropped, hopeners, hcalls, hhandled, hresults⟩ := hfacts
  have hstage : ∀ k ∈ s.client.calls, k.name = "n" → k.stage = .done (.error (unanswered "n")) :=
    fun k hk _ => Call.stage_of_result? (hresults k hk)
  -- the number of requests follows from the run lemma, for all calls returned nothing
  have hrequests := hleads.requests_eq hdropped hstage
  rw [hopeners, hcalls] at hrequests
  refine ⟨hcalls, fun k hk => ?_, List.length_eq_zero_iff.mp hhandled, hdropped, hrequests, ?_⟩
  · unfold Call.isDone
    rw [Call.stage_of_result? (hresults k hk)]
  · rw [hrequests]
    decide

end Interleaving

end Coordination
