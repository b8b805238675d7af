import Coordination.Proofs.Credential.Hearing
/-!
# Who asks for a call that waits

A call that finds others waiting for its name relies on their request.  It asks by itself from its
second attempt on, so a call that waited in vain for all of several attempts has asked.  With one
attempt only, it may rely on a request that never goes out: the call that was to send it is still
at it, has failed, or was given up before.
-/

namespace Coordination

namespace Call

/-- The request of the call is on its way, or it failed. -/
def Unsent (k : Call) : Prop :=
  (∃ attempt letter, k.stage = .send attempt letter) ∨
    ∃ e, k.Fails e ∧ e ≠ CredentialClient.unanswered k.name

/-- The call waits, or has waited in vain. -/
def Waited (k : Call) : Prop :=
  match k.stage with
  | .wait _ _ | .withdraw _ none => True
  | .enlist attempt => 1 < attempt
  | .done result => result = .error (CredentialClient.unanswered k.name)
  | _ => False

/-- The call waits for a repeated attempt, or has done so in vain. -/
def Repeated (attempts : Nat) (k : Call) : Prop :=
  match k.stage with
  | .wait attempt _ | .withdraw attempt none => 1 < attempt
  | .enlist attempt | .send attempt _ => 2 < attempt
  | .done result => result = .error (CredentialClient.unanswered k.name) ∧ 1 < attempts
  | _ => False

variable {k : Call} {value : String}

theorem Unsent.give (h : k.Unsent) (value : String) : (k.give value).Unsent := by
  unfold Call.give
  split
  · exact .inl ⟨_, _, rfl⟩
  · next hstage => simp [Unsent, Fails, hstage] at h
  · exact h

theorem waited_of_give (h : (k.give value).Waited) : k.Waited := by
  unfold give at h
  split at h
  · simp [Waited] at h
  · next hstage => simp [Waited, hstage]
  · exact h

theorem repeated_of_give {attempts : Nat} (h : (k.give value).Repeated attempts) :
    k.Repeated attempts := by
  unfold give at h
  split at h
  · next hstage => simpa [Repeated, hstage] using h
  · next hstage => simpa [Repeated, hstage] using h
  · exact h

end Call

namespace CredentialClient

variable {c c' : CredentialClient} {b b' : Bus} {k k' : Call}

/-- A request that is on its way goes out or fails. -/
theorem Stride.unsent (h : c.Stride b k k' c' b') (hunsent : k.Unsent) :
    k'.Unsent ∨ c.request b k.name = (.ok (), b') := by
  cases h with
  | asked stage request => exact .inr request
  | unasked stage request =>
    -- why a request fails is never that nothing was found
    exact .inl (.inr ⟨_, .inl ⟨_, rfl⟩, ne_unanswered_of_request request⟩)
  | fail stage =>
    refine .inl (.inr ?_)
    simpa [Call.Unsent, Call.Fails, stage] using hunsent
  | _ stage => simp [Call.Unsent, Call.Fails, stage] at hunsent

/-- A call comes to wait when it has asked, or when somebody waits already. -/
theorem Stride.waited (h : c.Stride b k k' c' b') (htries : k.Tries c.config.attempts)
    (hattempts : 0 < c.config.attempts) (hwaited : k'.Waited) :
    k.Waited ∨ c.request b k.name = (.ok (), b') ∨
      ∃ t ∈ c.waiters k.name, c.isOpen t = true := by
  cases h with
  | unknown stage =>
    -- there is an attempt to make, so that the call does not give up at once
    unfold attemptOr at hwaited
    rw [if_pos (Nat.succ_le_of_lt hattempts)] at hwaited
    simp [Call.Waited] at hwaited
  | join stage company =>
    obtain ⟨t, ht⟩ := List.exists_mem_of_ne_nil _ company
    exact .inr (.inr ⟨t, List.mem_filter.mp ht⟩)
  | asked stage request => exact .inr (.inl request)
  | late stage => exact .inl (by simp only [Call.Waited, stage])
  | fail stage =>
    simp only [Call.Tries, stage] at htries
    simp [Call.Waited, htries.2.2] at hwaited
  | retry stage => exact .inl (by simp only [Call.Waited, stage])
  | _ => simp [Call.Waited, unanswered] at hwaited

/-- A call comes to wait for a repeated attempt when it has asked. -/
theorem Stride.repeated (h : c.Stride b k k' c' b') (htries : k.Tries c.config.attempts)
    (hrepeated : k'.Repeated c.config.attempts) :
    k.Repeated c.config.attempts ∨ c.request b k.name = (.ok (), b') := by
  cases h with
  | unknown stage =>
    unfold attemptOr at hrepeated
    split at hrepeated
    · simp [Call.Repeated] at hrepeated
    · simp only [Call.Repeated] at hrepeated
      omega
  | lead stage => exact .inl (by simpa only [Call.Repeated, stage] using hrepeated)
  | join stage company first =>
    simp only [Call.Repeated, beginWait] at hrepeated
    omega
  -- a call waits for a repeated attempt only after it has sent its request
  | asked stage request => exact .inr request
  | late stage => exact .inl (by simpa only [Call.Repeated, stage] using hrepeated)
  | fail stage =>
    simp only [Call.Tries, stage] at htries
    simp [Call.Repeated, htries.2.2] at hrepeated
  | retry stage =>
    refine .inl ?_
    unfold attemptOr at hrepeated
    split at hrepeated
    · simp only [Call.Repeated, stage] at hrepeated ⊢
      omega
    · simp only [Call.Repeated, stage] at hrepeated ⊢
      omega
  | _ => simp [Call.Repeated, unanswered] at hrepeated

end CredentialClient

namespace Interleaving

open CredentialClient (Stride unanswered)

variable {s s' t : Interleaving} {action : Action} {actions : List Action} {topics : Generator}
  {keys : KeyPair} {config : ClientConfig} {bus : Bus} {k k' : Call} {name : String}

/-! ## Requests that went out -/

theorem requests_le_of_act (hact : s.act action = some s') (name : String) :
    s.requests name ≤ s'.requests name := by
  unfold requests
  cases action with
  | call id =>
    -- only a call publishes, and it publishes behind what there is
    obtain ⟨k, -, -, k', client, bus, -, rfl⟩ := stride_of_act_call hact
    rw [List.filterMap_append, List.count_append]
    exact Nat.le_add_right _ _
  | drop id =>
    obtain ⟨k, -, -, rfl⟩ := act_drop_cases hact
    exact Nat.le_refl _
  | tell place =>
    obtain ⟨client, -, rfl⟩ := act_tell_cases hact
    exact Nat.le_refl _
  | _ =>
    cases hact
    exact Nat.le_refl _

/-- A request that the transport accepts is counted. -/
theorem requests_pos_of_request (hrequest : s.client.request s.bus name = (.ok (), s'.bus))
    (hsent : s'.sent = s.sent ++ s'.bus.published.drop s.bus.published.length) :
    0 < s'.requests name := by
  obtain ⟨raw, hasks, hpublished⟩ := CredentialClient.request_ok hrequest
  unfold requests
  rw [hsent, hpublished, List.drop_left, List.filterMap_append, List.count_append,
    List.filterMap_cons_some hasks]
  simp

/-- Whoever waits for a repeated attempt has asked. -/
theorem Leads.asked_of_repeated (h : (start topics keys config bus).Leads s) :
    ∀ k ∈ s.client.calls, k.Repeated config.attempts → 0 < s.requests k.name := by
  induction h with
  | refl => exact fun k hk => absurd hk List.not_mem_nil
  | @tail s s' hleads hstep ih =>
    intro j hj hrepeated
    obtain ⟨action, hact⟩ := hstep
    have hconfig : s.client.config = config := (Leads.extends hleads).config
    rcases (Leads.sound hleads).moves hact hj with ⟨name, -, rfl⟩ | ⟨k, hk, hmoves⟩
    · simp [Call.Repeated] at hrepeated
    · rw [hmoves.name_eq]
      have hbefore := fun hrepeated =>
        Nat.lt_of_lt_of_le (ih k hk hrepeated) (requests_le_of_act hact k.name)
      -- what was sent stays sent, so that only the step that sends counts
      cases hmoves with
      | steps act stride sent =>
        have htries := Leads.tries hleads k hk
        rw [← hconfig] at htries hrepeated hbefore
        rcases stride.repeated htries hrepeated with hrepeated | hrequest
        · exact hbefore hrepeated
        · exact requests_pos_of_request hrequest sent
      | told => exact hbefore (Call.repeated_of_give hrepeated)
      | stays => exact hbefore hrepeated

/-! ## Requests that never went out -/

/-- Somebody was to ask for a name and has not done so: a call whose request is on its way or failed,
or one that was given up in this state. -/
def Withheld (s : Interleaving) (actions : List Action) (t : Interleaving) (name : String) : Prop :=
  (∃ k ∈ t.client.calls, k.name = name ∧ k.Unsent) ∨
    ∃ before id after u, actions = before ++ .drop id :: after ∧ s.run before = some u ∧
      ∃ k ∈ u.client.calls, k.id = id ∧ k.name = name ∧ k.Unsent

/-- Whoever was to ask does so, or never does. -/
theorem Withheld.act (h : s.Withheld actions t name) (hrun : s.run actions = some t)
    (hsound : t.Sound) (hact : t.act action = some s') :
    s.Withheld (actions ++ [action]) s' name ∨ 0 < s'.requests name := by
  rcases h with ⟨k, hk, rfl, hunsent⟩ | ⟨before, id, after, u, rfl, hbefore, hgiven⟩
  · -- the call is given up now, or it goes on
    rcases hsound.moved hact hk with rfl | ⟨j, hj, hmoves⟩
    · exact .inl (.inr ⟨actions, k.id, [], t, rfl, hrun, k, hk, rfl, rfl, hunsent⟩)
    · suffices j.Unsent ∨ 0 < s'.requests k.name by
        rcases this with hunsent | hasked
        · exact .inl (.inl ⟨j, hj, hmoves.name_eq, hunsent⟩)
        · exact .inr hasked
      cases hmoves with
      | steps act stride sent =>
        rcases stride.unsent hunsent with hunsent | hrequest
        · exact .inl hunsent
        · exact .inr (requests_pos_of_request hrequest sent)
      | told => exact .inl (hunsent.give _)
      | stays => exact .inl hunsent
  · exact .inl (.inr ⟨before, id, after ++ [action], u, by simp, hbefore, hgiven⟩)

/-- Whoever waits has company that asked, or was to ask. -/
theorem withheld_of_run (hattempts : 0 < config.attempts)
    (hrun : (start topics keys config bus).run actions = some s) :
    ∀ k ∈ s.client.calls, k.Waited →
      0 < s.requests k.name ∨ (start topics keys config bus).Withheld actions s k.name := by
  refine run_induction (P := fun actions s => ∀ k ∈ s.client.calls, k.Waited →
    0 < s.requests k.name ∨ (start topics keys config bus).Withheld actions s k.name) ?_ ?_ hrun
  · exact fun k hk => absurd hk List.not_mem_nil
  · intro actions t action s' hrun ih hact j hj hwaited
    have hleads := Leads.of_run hrun
    have hsound := hleads.sound
    -- what was so before is so still
    have hstill : ∀ name, 0 < t.requests name ∨
        (start topics keys config bus).Withheld actions t name →
        0 < s'.requests name ∨
          (start topics keys config bus).Withheld (actions ++ [action]) s' name := by
      intro name hcases
      rcases hcases with hasked | hwithheld
      · exact .inl (Nat.lt_of_lt_of_le hasked (requests_le_of_act hact name))
      · exact (hwithheld.act hrun hsound hact).symm
    rcases hsound.moves hact hj with ⟨name, -, rfl⟩ | ⟨k, hk, hmoves⟩
    · simp [Call.Waited] at hwaited
    · rw [hmoves.name_eq]
      cases hmoves with
      | steps act stride sent =>
        have hconfig : t.client.config = config := hleads.extends.config
        have htries := hleads.tries k hk
        rw [← hconfig] at htries
        rcases stride.waited htries (hconfig ▸ hattempts) hwaited with
          hwaited | hrequest | ⟨ticket, hticket, hopen⟩
        · exact hstill k.name (ih k hk hwaited)
        · exact .inl (requests_pos_of_request hrequest sent)
        · -- the company is at its request, or waits in its turn
          obtain ⟨i, hi, hname, hplace⟩ := hsound.seated.exists_of_isOpen hticket hopen
          rw [← hname]
          refine hstill i.name ?_
          unfold Call.place? at hplace
          -- of one that waits this was known before
          split at hplace
          · next hstage => exact .inr (.inl ⟨i, hi, rfl, .inl ⟨_, _, hstage⟩⟩)
          · next hstage => exact ih i hi (by simp only [Call.Waited, hstage])
          · cases hplace
      | told => exact hstill k.name (ih k hk (Call.waited_of_give hwaited))
      | stays => exact hstill j.name (ih j hk hwaited)

/-- **Nobody waits in silence.**  In every run, also one in which requests fail and calls are given
up, if a call returns that nothing was found, then a request for its name went out; or else the calls
make one attempt each, and whoever was to ask is still at it, has failed or was given up before. -/
theorem asked_of_unanswered (hattempts : 0 < config.attempts)
    (hrun : (start topics keys config bus).run actions = some s) (hk : k ∈ s.client.calls)
    (hstage : k.stage = .done (.error (unanswered k.name))) :
    0 < s.requests k.name ∨
      config.attempts = 1 ∧ (start topics keys config bus).Withheld actions s k.name := by
  by_cases honce : config.attempts = 1
  · have hwaited : k.Waited := by simp only [Call.Waited, hstage]
    exact (withheld_of_run hattempts hrun k hk hwaited).imp_right fun h => ⟨honce, h⟩
  · refine .inl ((Leads.of_run hrun).asked_of_repeated k hk ?_)
    simp only [Call.Repeated, hstage, true_and]
    omega

/-- The first of two calls is given up before its request goes out.  The second relies on it, and
returns that nothing was found although nobody asked. -/
theorem unasked_of_dropped : ∃ s,
    hasty.run [.ask "n", .ask "n", .call 0, .call 0, .call 1, .call 1, .drop 0, .pass 100, .call 1,
      .call 1] = some s ∧
    s.client.calls.map (fun k => (k.id, k.result?)) = [(1, some (.error (unanswered "n")))] ∧
    s.requests "n" = 0 := by
  refine exists_run (f := fun s => (s.client.calls.map (fun k => (k.id, k.result?)), s.sent.length))
    (y := ([(1, some (.error (unanswered "n")))], 0)) (by decide +kernel) ?_
  intro s _ hfacts
  simp only [Prod.mk.injEq, List.length_eq_zero_iff] at hfacts
  obtain ⟨hcalls, hsent⟩ := hfacts
  refine ⟨hcalls, ?_⟩
  unfold requests
  rw [hsent]
  rfl

end Interleaving

end Coordination
