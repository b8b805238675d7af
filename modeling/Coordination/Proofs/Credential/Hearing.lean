import Coordination.Proofs.Credential.History
/-!
# Which values a call hears of

A call hears of a value in two ways.  It finds the value in the cache when it looks there, which it
does once, before its first attempt; or it is told the value while it has a place.  A value that
comes between the look and the first place, between two attempts or after the last one passes the
call by: it is kept, and still the call may return that nothing was found.  What a call returns
depends on what it heard of and on nothing else, unless it could not ask.
-/

namespace Coordination

namespace Call

/-- The call returned because it could not ask. -/
def Unasked (k : Call) : Prop :=
  ∃ e, k.stage = .done (.error e) ∧ (e = .notConnected ∨ ∃ detail, e = .connectivity detail)

/-- The call has the value, or it could not ask. -/
def Takes (k : Call) (value : String) : Prop :=
  k.Holds value ∨ ∃ e, k.Fails e ∧ e ≠ CredentialClient.unanswered k.name

/-- The call is still to look into the cache, or has returned a value. -/
def Finds (k : Call) : Prop := k.stage = .lookup ∨ ∃ value, k.stage = .done (.ok value)

variable {k : Call} {value : String}

theorem Takes.give (h : k.Takes value) (other : String) : (k.give other).Takes value := by
  -- a call that takes a value waits for none
  have hnone : ∀ attempt, ¬ k.Awaits attempt := by
    intro attempt hawaits
    rcases hawaits with hstage | hstage <;> simp [Takes, Holds, Fails, hstage] at h
  rwa [give_of_not_awaits hnone]

theorem Awaits.holds_give {attempt : Nat} (h : k.Awaits attempt) : (k.give value).Holds value := by
  unfold Call.give
  rcases h with hstage | hstage <;> rw [hstage] <;> simp [Holds]

/-- What a call that has returned has, it has returned. -/
theorem Holds.stage_eq (h : k.Holds value) (hdone : k.isDone = true) :
    k.stage = .done (.ok value) := by
  rcases h with ⟨attempt, hstage | hstage⟩ | hstage
  · simp [isDone, hstage] at hdone
  · simp [isDone, hstage] at hdone
  · exact hstage

theorem Fails.stage_eq {e : Error} (h : k.Fails e) (hdone : k.isDone = true) :
    k.stage = .done (.error e) := by
  rcases h with ⟨attempt, hstage⟩ | hstage
  · simp [isDone, hstage] at hdone
  · exact hstage

theorem isDone_of_stage {result : Except Error String} (h : k.stage = .done result) :
    k.isDone = true := by
  unfold isDone
  rw [h]

theorem stage_of_isDone (h : k.isDone = true) : ∃ result, k.stage = .done result := by
  unfold isDone at h
  split at h
  · next result hstage => exact ⟨result, hstage⟩
  · cases h

end Call

namespace CredentialClient

variable {c c' : CredentialClient} {b b' : Bus} {k k' : Call} {value : String}

/-- Nothing takes the value from a call again but that it cannot ask. -/
theorem Stride.takes (h : c.Stride b k k' c' b') (htakes : k.Takes value) : k'.Takes value := by
  cases h with
  | asked stage => simpa [Call.Takes, Call.Holds, Call.Fails, beginWait, stage] using htakes
  | unasked stage request =>
    exact .inr ⟨_, .inl ⟨_, rfl⟩, ne_unanswered_of_request request⟩
  | told stage => simpa [Call.Takes, Call.Holds, Call.Fails, stage] using htakes
  | fail stage => simpa [Call.Takes, Call.Holds, Call.Fails, stage] using htakes
  | _ stage => simp [Call.Takes, Call.Holds, Call.Fails, stage] at htakes

/-- A call that looks for what is in the cache returns it. -/
theorem Stride.stage_of_hit (h : c.Stride b k k' c' b') (hstage : k.stage = .lookup)
    (hhit : c.cache.lookup k.name = some value) : k'.stage = .done (.ok value) := by
  cases h with
  | known stage hit =>
    cases hhit.symm.trans hit
    rfl
  | unknown stage miss => cases hhit.symm.trans miss
  | _ stage => cases hstage.symm.trans stage

theorem Stride.finds (h : c.Stride b k k' c' b') (hcached : c.isCached k.name = true)
    (hfinds : k.Finds) : k'.Finds := by
  rcases hfinds with hstage | ⟨value, hstage⟩
  · obtain ⟨value, hhit⟩ := Option.isSome_iff_exists.mp hcached
    exact .inr ⟨value, h.stage_of_hit hstage hhit⟩
  · exact absurd hstage (h.not_done _)

end CredentialClient

namespace Interleaving

open CredentialClient (Stride unanswered)

variable {s s' t : Interleaving} {action : Action} {actions : List Action} {topics : Generator}
  {keys : KeyPair} {config : ClientConfig} {bus : Bus} {k k' : Call} {id : Nat}
  {name value : String}

/-! ## Hearing of a value -/

/-- The action brings a value to a call. -/
inductive Brings (s : Interleaving) (k : Call) (value : String) (action : Action) : Prop
  /-- The call looks into the cache, and the value is there. -/
  | found (act : action = .call k.id) (stage : k.stage = .lookup)
      (hit : s.client.cache.lookup k.name = some value)
  /-- The value is told to the name of the call, which waits. -/
  | told {place attempt : Nat} (act : action = .tell place) (waits : k.Awaits attempt)
      (entry : s.client.untold[place]? = some (k.name, value))

/-- In the course of a run, a value is brought to the call of a number. -/
def Hears (s : Interleaving) (actions : List Action) (id : Nat) (value : String) : Prop :=
  ∃ before action after t, actions = before ++ action :: after ∧ s.run before = some t ∧
    ∃ k ∈ t.client.calls, k.id = id ∧ t.Brings k value action

theorem hears_snoc_iff (h : s.run actions = some t) :
    s.Hears (actions ++ [action]) id value ↔
      s.Hears actions id value ∨ ∃ k ∈ t.client.calls, k.id = id ∧ t.Brings k value action := by
  constructor
  · intro hhears
    obtain ⟨before, action', after, t', heq, hrun, hbrings⟩ := hhears
    -- the message came with the last action, or before it
    rcases List.eq_nil_or_concat after with rfl | ⟨after, last, rfl⟩
    · obtain ⟨rfl, hlast⟩ := List.append_inj' heq rfl
      cases hlast
      rw [h] at hrun
      cases hrun
      exact .inr hbrings
    · rw [List.concat_eq_append, ← List.cons_append, ← List.append_assoc] at heq
      obtain ⟨rfl, -⟩ := List.append_inj' heq rfl
      exact .inl ⟨before, action', after, t', rfl, hrun, hbrings⟩
  · intro hcases
    rcases hcases with ⟨before, action', after, t', rfl, hrun, hbrings⟩ | hbrings
    · exact ⟨before, action', after ++ [action], t', by simp, hrun, hbrings⟩
    · exact ⟨actions, action, [], t, rfl, h, hbrings⟩

/-! ## One action -/

/-- Whoever has the value had it before or is brought it. -/
theorem Moves.holds (h : s.Moves s' action k k') (hvalue : k'.Holds value) :
    k.Holds value ∨ s.Brings k value action := by
  cases h with
  | steps act stride =>
    rcases stride.holds hvalue with hold | ⟨stage, hit⟩
    · exact .inl hold
    · exact .inr (.found act stage hit)
  | told act entry =>
    by_cases hawaits : ∃ attempt, k.Awaits attempt
    · obtain ⟨attempt, hawaits⟩ := hawaits
      rcases Call.holds_give hvalue with hold | rfl
      · exact .inl hold
      · exact .inr (.told act hawaits entry)
    · rw [Call.give_of_not_awaits fun attempt h => hawaits ⟨attempt, h⟩] at hvalue
      exact .inl hvalue
  | stays => exact .inl hvalue

theorem Moves.takes (h : s.Moves s' action k k') (htakes : k.Takes value) : k'.Takes value := by
  cases h with
  | steps act stride => exact stride.takes htakes
  | told => exact htakes.give _
  | stays => exact htakes

/-- Whoever is brought the value has it. -/
theorem Moves.holds_of_brings (h : s.Moves s' action k k') (hbrings : s.Brings k value action) :
    k'.Holds value := by
  cases hbrings with
  | found act stage hit =>
    cases h with
    | steps _ stride => exact .inr (stride.stage_of_hit stage hit)
    | told act' => cases act.symm.trans act'
    | stays other => exact absurd act other
  | told act waits entry =>
    cases h with
    | steps act' => cases act.symm.trans act'
    | told act' entry' =>
      cases act.symm.trans act'
      cases entry.symm.trans entry'
      exact waits.holds_give
    | stays other untold => exact absurd entry (untold _ _ act)

theorem made_le_of_act (hact : s.act action = some s') : s.client.made ≤ s'.client.made := by
  cases action with
  | ask name =>
    cases hact
    exact Nat.le_succ _
  | call id =>
    obtain ⟨k, -, -, k', client, bus, hstride, rfl⟩ := stride_of_act_call hact
    rw [hstride.frame]
  | drop id =>
    obtain ⟨k, -, -, rfl⟩ := act_drop_cases hact
    exact Nat.le_refl _
  | keep m =>
    cases hact
    show s.client.made ≤ (s.client.keep m).made
    rw [s.client.keep_frame m]
  | tell place =>
    obtain ⟨client, htell, rfl⟩ := act_tell_cases hact
    obtain ⟨name, value, -, rfl⟩ := CredentialClient.tellAt_cases htell
    exact Nat.le_refl _
  | pass millis =>
    cases hact
    exact Nat.le_refl _
  | rewire bus =>
    cases hact
    exact Nat.le_refl _

/-! ## Runs -/

/-- The calls that are there know what they heard of. -/
structure Heeds (s : Interleaving) (actions : List Action) (t : Interleaving) : Prop where
  /-- Only a call that was made hears. -/
  made : ∀ id value, s.Hears actions id value → id < t.client.made
  holds : ∀ k ∈ t.client.calls, ∀ value, k.Holds value → s.Hears actions k.id value
  takes : ∀ k ∈ t.client.calls, ∀ value, s.Hears actions k.id value → k.Takes value

theorem heeds_nil (topics : Generator) (keys : KeyPair) (config : ClientConfig) (bus : Bus) :
    (start topics keys config bus).Heeds [] (start topics keys config bus) := by
  refine ⟨?_, fun k hk => absurd hk List.not_mem_nil, fun k hk => absurd hk List.not_mem_nil⟩
  intro id value hhears
  obtain ⟨before, action, after, -, heq, -⟩ := hhears
  simp at heq

theorem Heeds.act (h : s.Heeds actions t) (hrun : s.run actions = some t) (hsound : t.Sound)
    (hact : t.act action = some s') : s.Heeds (actions ++ [action]) s' := by
  have hmade := made_le_of_act hact
  constructor
  case made =>
    intro id value hhears
    rcases (hears_snoc_iff hrun).mp hhears with hbefore | ⟨k, hk, rfl, -⟩
    · exact Nat.lt_of_lt_of_le (h.made id value hbefore) hmade
    · exact Nat.lt_of_lt_of_le (hsound.seated.id_lt hk) hmade
  case holds =>
    intro j hj value hvalue
    rcases hsound.moves hact hj with ⟨name, -, rfl⟩ | ⟨k, hk, hmoves⟩
    · simp [Call.Holds] at hvalue
    · rw [hears_snoc_iff hrun, hmoves.id_eq]
      rcases hmoves.holds hvalue with hold | hbrings
      · exact .inl (h.holds k hk value hold)
      · exact .inr ⟨k, hk, rfl, hbrings⟩
  -- a value that is brought by this action is brought to the call that has the number
  case takes =>
    intro j hj value hhears
    rcases hsound.moves hact hj with ⟨name, -, rfl⟩ | ⟨k, hk, hmoves⟩
    · -- nothing was brought under a number that was not given out yet
      rcases (hears_snoc_iff hrun).mp hhears with hbefore | ⟨k, hk, hid, -⟩
      · exact absurd (h.made _ value hbefore) (Nat.lt_irrefl _)
      · exact absurd hid (Nat.ne_of_lt (hsound.seated.id_lt hk))
    · rw [hears_snoc_iff hrun, hmoves.id_eq] at hhears
      rcases hhears with hbefore | ⟨i, hi, hid, hbrings⟩
      · exact hmoves.takes (h.takes k hk value hbefore)
      · obtain rfl := hsound.seated.eq_of_id hk hi hid
        exact .inl (hmoves.holds_of_brings hbrings)

theorem heeds_of_run (h : (start topics keys config bus).run actions = some s) :
    (start topics keys config bus).Heeds actions s := by
  -- on the actions from the end; a call hears in an action or has heard before
  refine run_induction (heeds_nil topics keys config bus) ?_ h
  intro actions t action s' hrun hheeds hact
  exact hheeds.act hrun (Leads.sound (.of_run hrun)) hact

/-- Why a call fails: nothing was found, or it could not ask. -/
theorem Leads.fails (h : (start topics keys config bus).Leads s) :
    ∀ k ∈ s.client.calls, ∀ e, k.Fails e →
      e = unanswered k.name ∨ e = .notConnected ∨ ∃ detail, e = .connectivity detail := by
  refine h.forall_calls ?_ ?_
  · intro id name e hfails
    simp [Call.Fails] at hfails
  · intro s s' action hleads k hk k' hmoves hwhy e hfails
    rw [hmoves.name_eq]
    cases hmoves with
    | steps act stride =>
      rcases stride.fails hfails with hfails | heq | ⟨b', hrequest⟩ | ⟨attempt, hstage, hgone⟩
      · exact hwhy e hfails
      · exact .inl heq
      · exact .inr (CredentialClient.request_error hrequest).1
      · -- whoever waits has its place
        exact absurd ((Leads.sound hleads).seated.placed k hk attempt (.inr hstage)) hgone
    | told => exact hwhy e (Call.fails_give hfails)
    | stays => exact hwhy e hfails

/-! ## Values that were kept before -/

/-- What is known stays known. -/
theorem isCached_of_act (hact : s.act action = some s') (h : s.client.isCached name = true) :
    s'.client.isCached name = true := by
  unfold CredentialClient.isCached at h ⊢
  cases action with
  | ask name =>
    cases hact
    exact h
  | call id =>
    obtain ⟨k, -, -, k', client, bus, hstride, rfl⟩ := stride_of_act_call hact
    rw [hstride.frame]
    exact h
  | drop id =>
    obtain ⟨k, -, -, rfl⟩ := act_drop_cases hact
    exact h
  -- a new value may take the place of the old one, but none is taken away
  | keep m =>
    cases hact
    show ((s.client.keep m).cache.lookup name).isSome = true
    unfold CredentialClient.keep
    split
    · next other value hopened =>
      by_cases hname : name = other
      · rw [hname, CredentialClient.lookup_setKey]
        rfl
      · rw [CredentialClient.lookup_setKey_of_ne hname]
        exact h
    · exact h
  | tell place =>
    obtain ⟨client, htell, rfl⟩ := act_tell_cases hact
    obtain ⟨other, value, -, rfl⟩ := CredentialClient.tellAt_cases htell
    exact h
  | pass millis =>
    cases hact
    exact h
  | rewire bus =>
    cases hact
    exact h

theorem Moves.finds (h : s.Moves s' action k k') (hcached : s.client.isCached k.name = true)
    (hfinds : k.Finds) : k'.Finds := by
  cases h with
  | steps act stride => exact stride.finds hcached hfinds
  | told act entry =>
    have hnone : ∀ attempt, ¬ k.Awaits attempt := by
      intro attempt hawaits
      rcases hawaits with hstage | hstage <;> simp [Call.Finds, hstage] at hfinds
    rwa [Call.give_of_not_awaits hnone]
  | stays => exact hfinds

theorem finds_of_run (hleads : (start topics keys config bus).Leads s)
    (hcached : s.client.isCached name = true) (h : s.run actions = some t) (hk : k ∈ t.client.calls)
    (hname : k.name = name) (hearly : ∀ j ∈ s.client.calls, j.id = k.id → j.stage = .lookup) :
    k.Finds := by
  -- carried along: the name stays known, and its calls look for it or have found it
  refine (run_induction (P := fun _ t => t.Sound ∧ t.client.isCached name = true ∧
    ∀ k ∈ t.client.calls, k.name = name →
      (∀ j ∈ s.client.calls, j.id = k.id → j.stage = .lookup) → k.Finds) ?_ ?_ h).2.2
    k hk hname hearly
  · refine ⟨hleads.sound, hcached, ?_⟩
    intro i hi _ hlooks
    exact .inl (hlooks i hi rfl)
  · intro actions t action s' _ hbefore hact
    obtain ⟨hsound, hcached, hfinds⟩ := hbefore
    refine ⟨hsound.act hact, isCached_of_act hact hcached, ?_⟩
    intro j hj hname hlooks
    rcases hsound.moves hact hj with ⟨other, -, rfl⟩ | ⟨i, hi, hmoves⟩
    · exact .inl rfl
    · rw [hmoves.name_eq] at hname
      rw [hmoves.id_eq] at hlooks
      exact hmoves.finds (hname ▸ hcached) (hfinds i hi hname hlooks)

/-! ## What a call returns -/

/-- What a call returns, by the run that led to it. -/
structure Returns (s : Interleaving) (actions : List Action) (k : Call) : Prop where
  /-- It returns a value exactly if it heard of it, unless it could not ask. -/
  value : k.isDone = true → ∀ value,
    k.stage = .done (.ok value) ↔ s.Hears actions k.id value ∧ ¬ k.Unasked
  /-- It returns that nothing was found exactly if it heard of no value, unless it could not ask. -/
  nothing : k.isDone = true →
    (k.stage = .done (.error (unanswered k.name)) ↔
      (∀ value, ¬ s.Hears actions k.id value) ∧ ¬ k.Unasked)
  /-- It finds an answer that was kept before it looked. -/
  early : ∀ before m after t value, actions = before ++ .keep m :: after → s.run before = some t →
    t.client.Answers m k.name value → (∀ j ∈ t.client.calls, j.id = k.id → j.stage = .lookup) →
    k.Finds

/-- A call that returns that nothing was found did not fail to ask. -/
theorem not_unasked_of_unanswered (h : k.stage = .done (.error (unanswered k.name))) :
    ¬ k.Unasked := by
  intro hunasked
  obtain ⟨e, hstage, he⟩ := hunasked
  cases h.symm.trans hstage
  rcases he with heq | ⟨detail, heq⟩ <;> cases heq

section returned
variable (hrun : (start topics keys config bus).run actions = some s) (hk : k ∈ s.client.calls)
include hrun hk

/-- A value that was brought to a call is returned, unless the call could not ask. -/
theorem stage_of_hears (hdone : k.isDone = true)
    (hhears : (start topics keys config bus).Hears actions k.id value) (hasked : ¬ k.Unasked) :
    k.stage = .done (.ok value) := by
  rcases (heeds_of_run hrun).takes k hk value hhears with hvalue | ⟨e, hfail, hne⟩
  · exact hvalue.stage_eq hdone
  · have hwhy := (Leads.fails (.of_run hrun) k hk e hfail).resolve_left hne
    exact absurd ⟨e, hfail.stage_eq hdone, hwhy⟩ hasked

theorem returns_value_iff (hdone : k.isDone = true) (value : String) :
    k.stage = .done (.ok value) ↔
      (start topics keys config bus).Hears actions k.id value ∧ ¬ k.Unasked := by
  constructor
  · intro hstage
    refine ⟨(heeds_of_run hrun).holds k hk value (.inr hstage), ?_⟩
    intro hunasked
    obtain ⟨e, hstage', -⟩ := hunasked
    cases hstage.symm.trans hstage'
  · intro hparts
    exact stage_of_hears hrun hk hdone hparts.1 hparts.2

theorem returns_nothing_iff (hdone : k.isDone = true) :
    k.stage = .done (.error (unanswered k.name)) ↔
      (∀ value, ¬ (start topics keys config bus).Hears actions k.id value) ∧ ¬ k.Unasked := by
  constructor
  · intro hstage
    have hasked := not_unasked_of_unanswered hstage
    refine ⟨?_, hasked⟩
    intro value hhears
    cases hstage.symm.trans (stage_of_hears hrun hk hdone hhears hasked)
  · intro hparts
    obtain ⟨hnone, hasked⟩ := hparts
    -- a call that is done returned a value or failed, and it fails in two ways only
    obtain ⟨result, hstage⟩ := Call.stage_of_isDone hdone
    cases result with
    | ok value => exact absurd ((heeds_of_run hrun).holds k hk value (.inr hstage)) (hnone value)
    | error e =>
      rcases Leads.fails (.of_run hrun) k hk e (.inr hstage) with rfl | hwhy
      · exact hstage
      · exact absurd ⟨e, hstage, hwhy⟩ hasked

/-- An answer that was kept before a call looked is found. -/
theorem finds_of_answers {before after : List Action} {m : Message}
    (heq : actions = before ++ .keep m :: after)
    (hbefore : (start topics keys config bus).run before = some t)
    (hanswers : t.client.Answers m k.name value)
    (hearly : ∀ j ∈ t.client.calls, j.id = k.id → j.stage = .lookup) : k.Finds := by
  -- the run is cut behind the message
  rw [heq, run_append, hbefore, Option.bind_some] at hrun
  obtain ⟨kept, hact, hafter⟩ := Option.bind_eq_some_iff.mp hrun
  obtain ⟨kept', hact', hkept⟩ := kept_of_answers hanswers
  rw [hact] at hact'
  cases hact'
  have hcached : kept.client.isCached k.name = true := by
    unfold CredentialClient.isCached
    rw [hkept.cached]
    rfl
  rw [← hkept.calls] at hearly
  exact finds_of_run ((Leads.of_run hbefore).tail ⟨_, hact⟩) hcached hafter hk rfl hearly

end returned

/-- **A call returns what it heard of.**  In every run, a call that could ask returns a value if and
only if the value was in the cache when it looked there or was told while it had a place, and it
returns that nothing was found if and only if there was no such value. -/
theorem returns_of_run (hrun : (start topics keys config bus).run actions = some s)
    (hk : k ∈ s.client.calls) : (start topics keys config bus).Returns actions k where
  value := returns_value_iff hrun hk
  nothing := returns_nothing_iff hrun hk
  early _ _ _ _ _ := finds_of_answers hrun hk

/-! ## Values that pass a call by -/

/-- A response carries a value so that it is read back as one for its name, or for the text that its
name quotes. -/
theorem exists_response {cipher : Cipher} (hsuited : keys.SuitedBy cipher)
    (hfits : keys.Fits value) :
    ∃ ciphertext, keys.decrypt ciphertext = .ok value ∧ ∀ written read timestamp,
      ¬ Text.isBlank written → ¬ Text.isBlank read →
      written = read ∧ ¬ Json.IsQuoted written ∨ Json.Quotes written read →
      Event.decode ((Event.credentialResponse written ciphertext).toData timestamp) =
        .ok (.credentialResponse read ciphertext) := by
  obtain ⟨ciphertext, -, hopen, hquoted⟩ := KeyPair.encrypt_of_fits hsuited hfits 0
  refine ⟨ciphertext, hopen, ?_⟩
  intro written read timestamp hwritten hread hname
  rcases hname with ⟨rfl, hplain⟩ | hquotes
  · have hcomplete : (Event.credentialResponse written ciphertext).Complete := hwritten
    refine (Event.decode_toData_eq_ok_iff hcomplete timestamp).mpr ?_
    intro text htext
    rcases List.mem_pair.mp htext with rfl | rfl
    · exact hplain
    · exact hquoted
  · exact Event.decode_credentialResponse_of_quotes timestamp hquotes hwritten hread hquoted

/-- The messages that were handled are only recorded. -/
theorem act_handled (s : Interleaving) (ms : List Message) (action : Action) :
    ∃ ms', act { s with handled := ms } action =
      (s.act action).map fun s' => { s' with handled := ms' } := by
  -- no action reads the messages that were handled before
  cases action with
  | call id =>
    refine ⟨ms, ?_⟩
    unfold act
    dsimp only
    cases s.client.call? id with
    | none => rfl
    | some k =>
      simp only [Option.bind_some, Option.map_map]
      rfl
  | drop id =>
    refine ⟨ms, ?_⟩
    unfold act
    dsimp only
    cases s.client.call? id with
    | none => rfl
    | some k =>
      simp only [Option.bind_some]
      split <;> rfl
  | tell place =>
    refine ⟨ms, ?_⟩
    unfold act
    simp only [Option.map_map]
    rfl
  | _ => exact ⟨_, rfl⟩

theorem map_run_handled {α : Type} (f : CredentialClient → α) (s : Interleaving)
    (ms : List Message) (actions : List Action) :
    (run { s with handled := ms } actions).map (fun t => f t.client) =
      (s.run actions).map fun t => f t.client := by
  induction actions generalizing s ms with
  | nil => rfl
  | cons action actions ih =>
    obtain ⟨ms', hact⟩ := act_handled s ms action
    unfold run
    rw [hact]
    cases s.act action with
    | none => rfl
    | some s' => exact ih s' ms'

/-- The value of an answer was kept, and is to be told. -/
def withValue (s : Interleaving) (name value : String) : Interleaving :=
  { s with client := { s.client with
      cache := CredentialClient.setKey name value s.client.cache
      untold := s.client.untold ++ [(name, value)] } }

/-- A run in whose middle an answer is kept, whatever its ciphertext. -/
theorem map_run_answer {α : Type} {m : Message}
    (hanswers : ∀ t, s.Leads t → t.client.Answers m name value) (f : CredentialClient → α)
    (before after : List Action) :
    (s.run (before ++ .keep m :: after)).map (fun t => f t.client) =
      (s.run before).bind fun t =>
        ((t.withValue name value).run after).map fun t => f t.client := by
  rw [run_append]
  cases hbefore : s.run before with
  | none => rfl
  | some t =>
    rw [Option.bind_some, Option.bind_some]
    -- only the messages that were handled tell the ciphertexts apart
    show (run { t with client := t.client.keep m, handled := t.handled ++ [m] } after).map _ = _
    rw [CredentialClient.keep_of_answers (hanswers t (.of_run hbefore))]
    exact map_run_handled f (t.withValue name value) (t.handled ++ [m]) after

/-- A client whose calls make one attempt of a tenth of a second. -/
def hasty : Interleaving :=
  start ⟨"auth", "a1"⟩ (PublicKey.keyPair ⟨Nat.pow 2 1023 + 1, Cipher.usualExponent⟩)
    { timeout := 100, attempts := 1 } { connected := true }

/-- Answers that bring a client the value, each written for some name. -/
theorem exists_answers : ∃ answer : String → Message,
    (∀ written, (answer written).data.bind (fun data => data.get? "credential_name") =
      some (.string written)) ∧
    ∀ written read, ¬ Text.isBlank written → ¬ Text.isBlank read →
      written = read ∧ ¬ Json.IsQuoted written ∨ Json.Quotes written read →
      ∀ s, hasty.Leads s → s.client.Answers (answer written) read "v" := by
  have hsuited : hasty.client.keys.SuitedBy .plain := PublicKey.suitedBy_plain (by decide +kernel)
  have hfits : hasty.client.keys.Fits "v" := by decide +kernel
  obtain ⟨ciphertext, hopen, hdecode⟩ := exists_response hsuited hfits
  let answer (written : String) : Message :=
    .ofData (Generator.publishToAgent ⟨"auth", "auth"⟩ "a1")
      ((Event.credentialResponse written ciphertext).toData "now")
  refine ⟨answer, fun written => Event.get?_toData _ _ _, ?_⟩
  intro written read hwritten hread hname s hleads
  have hsender : Topic.senderOf (Generator.publishToAgent ⟨"auth", "auth"⟩ "a1") =
      some hasty.client.topics.authorityId := by decide
  rw [← hleads.extends.topics] at hsender
  rw [← hleads.extends.keys] at hopen
  exact ⟨hsender, ciphertext, hdecode written read "now" hwritten hread hname, hopen⟩

/-- An answer comes after the first of two calls has looked and before it takes a place.  The second
call, which looks afterwards, returns the value; the first waits in vain. -/
theorem returns_of_run_between_look_and_place :
    ∃ m s, let actions := [.ask "n", .call 0] ++ .keep m ::
        [.tell 0, .ask "n", .call 1, .call 0, .call 0, .pass 100, .call 0, .call 0]
      hasty.run actions = some s ∧
      s.client.calls.map (fun k => (k.id, k.name, k.result?)) =
        [(0, "n", some (.error (unanswered "n"))), (1, "n", some (.ok "v"))] ∧
      (∀ value, ¬ hasty.Hears actions 0 value) ∧ hasty.Hears actions 1 "v" := by
  obtain ⟨answer, -, hanswers⟩ := exists_answers
  have hanswer := hanswers "n" "n" (by decide) (by decide)
    (.inl ⟨rfl, Json.not_isQuoted (by decide)⟩)
  -- the run is evaluated with a message that brings the value, whatever its text
  obtain ⟨s, hrun, hcalls⟩ := Option.map_eq_some_iff.mp ((map_run_answer hanswer
      (fun c => c.calls.map fun k => (k.id, k.name, k.result?)) [.ask "n", .call 0]
      [.tell 0, .ask "n", .call 1, .call 0, .call 0, .pass 100, .call 0, .call 0]).trans
    (show _ = some [(0, "n", some (.error (unanswered "n"))), (1, "n", some (.ok "v"))] by
      decide +kernel))
  refine ⟨answer "n", s, hrun, hcalls, ?_, ?_⟩
  · obtain ⟨k, hk, heq⟩ : ∃ k ∈ s.client.calls, (k.id, k.name, k.result?) =
        (0, "n", some (.error (unanswered "n"))) := by
      rw [← List.mem_map, hcalls]
      exact List.mem_cons_self
    simp only [Prod.mk.injEq] at heq
    obtain ⟨hid, hname, hresult⟩ := heq
    have hstage := Call.stage_of_result? hresult
    -- the first call looked too early and has no place, so nothing was brought to it
    have hnothing := (returns_of_run hrun hk).nothing (Call.isDone_of_stage hstage)
    rw [hid, hname] at hnothing
    exact (hnothing.mp hstage).1
  · obtain ⟨k, hk, heq⟩ : ∃ k ∈ s.client.calls, (k.id, k.name, k.result?) =
        (1, "n", some (.ok "v")) := by
      rw [← List.mem_map, hcalls]
      exact List.mem_cons_of_mem _ List.mem_cons_self
    simp only [Prod.mk.injEq] at heq
    obtain ⟨hid, -, hresult⟩ := heq
    have hstage := Call.stage_of_result? hresult
    have hvalue := (returns_of_run hrun hk).value (Call.isDone_of_stage hstage) "v"
    rw [hid] at hvalue
    exact (hvalue.mp hstage).1

/-- A call that returns that nothing was found after an answer was kept and told. -/
theorem exists_missing_run {m : Message} {asked : String} {before after : List Action}
    (hanswers : ∀ t, hasty.Leads t → t.client.Answers m name value)
    (hmiddle : ((hasty.run before).bind fun t => ((t.withValue name value).run [.tell 0]).map
      fun t => (t.client.cache.lookup name, t.client.calls.map Call.isDone)) =
        some (some value, [false]))
    (hend : ((hasty.run before).bind fun t => ((t.withValue name value).run (.tell 0 :: after)).map
      fun t => t.client.calls.map Call.result?) = some [some (.error (unanswered asked))]) :
    ∃ s s', hasty.run (before ++ .keep m :: [.tell 0]) = some s ∧
      s.client.Answers m name value ∧ s.client.cache.lookup name = some value ∧
      s.client.calls.map Call.isDone = [false] ∧ s.run after = some s' ∧
      s'.client.calls.map Call.result? = [some (.error (unanswered asked))] := by
  obtain ⟨s, hrun, hkept⟩ := Option.map_eq_some_iff.mp ((map_run_answer hanswers
    (fun c => (c.cache.lookup name, c.calls.map Call.isDone)) before [.tell 0]).trans hmiddle)
  have hwhole := (map_run_answer hanswers (fun c => c.calls.map Call.result?) before
    (.tell 0 :: after)).trans hend
  have hsplit : before ++ .keep m :: .tell 0 :: after =
      (before ++ .keep m :: [.tell 0]) ++ after := by simp
  rw [hsplit, run_append, hrun, Option.bind_some] at hwhole
  obtain ⟨s', hrun', hresults⟩ := Option.map_eq_some_iff.mp hwhole
  exact ⟨s, s', hrun, hanswers s (.of_run hrun), congrArg Prod.fst hkept, congrArg Prod.snd hkept,
    hrun', hresults⟩

/-- Two calls that return that nothing was found although an answer was handled before.  One answer
comes between the look of the call and its place; the other is for a name that quotes a text, and is
kept under that text. -/
theorem missed_answers :
    ∃ plain quoted : Message,
      (∃ s s', hasty.run ([.ask "n", .call 0] ++ .keep plain :: [.tell 0]) = some s ∧
        s.client.Answers plain "n" "v" ∧ s.client.cache.lookup "n" = some "v" ∧
        s.client.calls.map Call.isDone = [false] ∧
        s.run [.call 0, .call 0, .pass 100, .call 0, .call 0] = some s' ∧
        s'.client.calls.map Call.result? = [some (.error (unanswered "n"))]) ∧
      quoted.data.bind (fun data => data.get? "credential_name") = some (.string "\"n\"") ∧
      ∃ s s', hasty.run ([.ask "\"n\"", .call 0, .call 0, .call 0] ++
          .keep quoted :: [.tell 0]) = some s ∧
        s.client.Answers quoted "n" "v" ∧ s.client.cache.lookup "n" = some "v" ∧
        s.client.calls.map Call.isDone = [false] ∧
        s.run [.pass 100, .call 0, .call 0] = some s' ∧
        s'.client.calls.map Call.result? = [some (.error (unanswered "\"n\""))] := by
  obtain ⟨answer, hdata, hanswers⟩ := exists_answers
  have hplain := hanswers "n" "n" (by decide) (by decide)
    (.inl ⟨rfl, Json.not_isQuoted (by decide)⟩)
  have hquotes : Json.Quotes "\"n\"" "n" :=
    ⟨[], ['n'], [], by decide, by simp, by simp, .plain (by decide) (by decide) (by decide) .nil⟩
  have hquoted := hanswers "\"n\"" "n" (by decide) (by decide) (.inr hquotes)
  exact ⟨answer "n", answer "\"n\"",
    exists_missing_run hplain (by decide +kernel) (by decide +kernel), hdata _,
    exists_missing_run hquoted (by decide +kernel) (by decide +kernel)⟩

end Interleaving

end Coordination
