import Coordination.Proofs.Authority.Connection
import Coordination.Proofs.Discovery.Search
import Mathlib.Logic.Relation
/-!
# Calls of one authority that overlap

Any number of calls search for the endpoints, bring the authority up and have it leave, and between
any two steps of a call anything else may happen.  Calls that bring it up and calls that have it
leave exclude each other.  A search excludes neither; of many searches one is at work, and the
others wait for their turn.

The state says that a search is on only while a call is at one.  Once all calls are done it says
whether the endpoints are known, unless the authority is up.  Main statement: `state_of_leads`.
-/

namespace Coordination

namespace Authority

/-! ## Where calls stand -/

/-- Why endpoints are searched for. -/
inductive Purpose where
  /-- For their own sake. -/
  | locate
  /-- To come up with a token. -/
  | connect (token : String)

/-- Where a call stands, by what it does next. -/
inductive Standing where
  /-- It looks whether the endpoints are known, and begins to search if not. -/
  | checkKnown (purpose : Purpose)
  /-- It waits until the endpoints are known or nobody else searches. -/
  | awaitTurn (purpose : Purpose)
  /-- It searches until an answer is acceptable or it is given up. -/
  | search (purpose : Purpose)
  /-- It takes the lock, to come up. -/
  | lockConnect (token : String)
  | connectBus (token endpoint : String)
  | subscribeInbox
  /-- It has the inbox served and says that the authority is up. -/
  | setConnected
  /-- It takes the lock, to leave. -/
  | lockDisconnect
  /-- It has the inbox served no more. -/
  | cancelDispatch
  | unsubscribeInbox
  | disconnectBus
  /-- It says that the authority has left. -/
  | resetState
  /-- It has returned. -/
  | done (result : Except Error Unit)

namespace Standing

def isSearching : Standing → Bool
  | search _ => true
  | _ => false

/-- Whether the call is at a search, from its first look on. -/
def isInitializing : Standing → Bool
  | checkKnown _ | awaitTurn _ | search _ => true
  | _ => false

/-- Whether the call has begun to search and has not ended it. -/
def hasBegun : Standing → Bool
  | awaitTurn _ | search _ => true
  | _ => false

def isDone : Standing → Bool
  | done _ => true
  | _ => false

/-- Whether the call holds the lock, so that no other can take it. -/
def holdsLock : Standing → Bool
  | checkKnown (.connect _) | awaitTurn (.connect _) | search (.connect _) | connectBus ..
  | subscribeInbox | setConnected | cancelDispatch | unsubscribeInbox | disconnectBus
  | resetState => true
  | _ => false

/-- A call that has returned is at nothing. -/
theorem of_isDone {stage : Standing} (h : stage.isDone = true) :
    stage.isSearching = false ∧ stage.hasBegun = false ∧ stage.holdsLock = false := by
  cases stage with
  | done result => exact ⟨rfl, rfl, rfl⟩
  | _ => cases h

end Standing

/-- What a step of a call meets with: how a search goes, how the broker answers, and whether the
call is asked to give up. -/
structure StepInput where
  call : Discovery.Call := ⟨.beforeRequest, []⟩
  admission : Admission := fun _ _ => .ok ()
  givenUp : Bool := false

def afterSearch (a : Authority) (purpose : Purpose) (result : Except Error Unit) : Standing :=
  match purpose, result with
  | .locate, result => .done result
  | .connect _, .error e => .done (.error e)
  | .connect token, .ok () =>
    match a.discovery.brokerUri? with
    | none => .done (.error (.connectivity "no broker uri after discovery"))
    | some endpoint => .connectBus token endpoint

/-- The next step of a call among all calls, if it can take one. -/
def step (a : Authority) (calls : List Standing) (f : StepInput) :
    Standing → Option (Authority × Standing)
  | .checkKnown purpose =>
    if a.discovery.isInitialized then some (a, a.afterSearch purpose (.ok ()))
    else some (a.beginSearch, .awaitTurn purpose)
  | .awaitTurn purpose =>
    if a.discovery.isInitialized then
      let a := a.endSearch true
      some (a, a.afterSearch purpose (.ok ()))
    else if calls.any Standing.isSearching then none
    else some (a, .search purpose)
  | .search purpose =>
    -- what is found is kept in the moment in which the search ends
    let outcome := a.discovery.search f.call.ending f.call.replies
    let a := { a with discovery := a.discovery.keep outcome }
    match outcome.result with
    | .ok _ =>
      let a := a.endSearch true
      some (a, a.afterSearch purpose (.ok ()))
    | .error e => some (a.endSearch false, a.afterSearch purpose (.error e))
  | .lockConnect token =>
    if calls.any Standing.holdsLock then none
    else if a.isConnected then some (a, .done (.ok ()))
    else match a.discovery.brokerUri? with
      | some endpoint => some (a, .connectBus token endpoint)
      | none => some (a, .checkKnown (.connect token))
  | .connectBus token endpoint =>
    match a.bus.connect f.admission token endpoint with
    | (.error e, bus) => some ({ a with bus }, .done (.error e))
    | (.ok (), bus) => some ({ a with bus }, .subscribeInbox)
  | .subscribeInbox =>
    match a.bus.subscribe a.inbox a.inbox with
    | (.error e, bus) => some ({ a with bus }, .done (.error e))
    | (.ok (), bus) => some ({ a with bus }, .setConnected)
  | .setConnected =>
    some ({ a with
      bus := if f.givenUp then a.bus.closeHandler a.inbox else a.bus
      state := a.state.replace .connected }, .done (.ok ()))
  | .lockDisconnect =>
    if calls.any Standing.holdsLock then none
    else if a.state.value ≠ .connected then some (a, .done (.ok ()))
    else some (a, .cancelDispatch)
  | .cancelDispatch => some ({ a with bus := a.bus.closeHandler a.inbox }, .unsubscribeInbox)
  | .unsubscribeInbox => some ({ a with bus := a.bus.unsubscribe a.inbox }, .disconnectBus)
  | .disconnectBus => some ({ a with bus := a.bus.disconnect.2 }, .resetState)
  | .resetState => some ({ a with state := a.state.replace a.restingState }, .done (.ok ()))
  | .done _ => none

/-- What a step does to the endpoints and the state. -/
inductive StepEffect (a : Authority) : Standing → Authority → Standing → Prop where
  /-- A search begins. -/
  | searchBegun {purpose : Purpose} : a.discovery.isInitialized = false →
    StepEffect a (.checkKnown purpose) a.beginSearch (.awaitTurn purpose)
  /-- A search ends with endpoints, whoever found them. -/
  | searchFound {stage stage' : Standing} {discovery : Discovery} : stage.hasBegun = true →
    discovery.isInitialized = true → StepEffect a stage ({ a with discovery }.endSearch true) stage'
  /-- A search is given up. -/
  | searchGivenUp {purpose : Purpose} {e : Error} : a.discovery.isInitialized = false →
    StepEffect a (.search purpose) (a.endSearch false) (.done (.error e))
  /-- The authority is up. -/
  | connected {bus : Bus} :
    StepEffect a .setConnected { a with bus, state := a.state.replace .connected } (.done (.ok ()))
  /-- The authority has left. -/
  | reset :
    StepEffect a .resetState { a with state := a.state.replace a.restingState } (.done (.ok ()))
  /-- Nothing of this happens; a search that is on goes on. -/
  | stateKept {stage stage' : Standing} {bus : Bus} :
    (stage.hasBegun = true → stage'.hasBegun = true) → StepEffect a stage { a with bus } stage'

variable {a a' : Authority} {calls : List Standing} {f : StepInput} {stage stage' : Standing}

/-- A step that searches finds endpoints to keep, or there were none and there are none. -/
theorem stepEffect_search {purpose : Purpose}
    (h : a.step calls f (.search purpose) = some (a', stage')) :
    a.StepEffect (.search purpose) a' stage' := by
  unfold step at h
  dsimp only at h
  cases hresult : (a.discovery.search f.call.ending f.call.replies).result with
  | ok e =>
    rw [hresult] at h
    cases h
    refine .searchFound rfl ?_
    rw [Discovery.keep, hresult]
    rfl
  | error e =>
    rw [hresult] at h
    cases h
    -- a search is given up only where nothing was known, for what is known ends it at once
    have hnone : a.discovery.endpoints = none := by
      cases hendpoints : a.discovery.endpoints with
      | none => rfl
      | some found =>
        rw [Discovery.search_of_endpoints hendpoints] at hresult
        cases hresult
    have hkeep : a.discovery.keep (a.discovery.search f.call.ending f.call.replies) =
        a.discovery := by
      rw [Discovery.keep, hresult]
    have hstage : a.afterSearch purpose (.error e) = .done (.error e) := by
      cases purpose <;> rfl
    rw [hkeep, hstage]
    exact .searchGivenUp (by rw [Discovery.isInitialized, hnone]; rfl)

theorem stepEffect_of_step (h : a.step calls f stage = some (a', stage')) :
    a.StepEffect stage a' stage' := by
  cases stage with
  | checkKnown purpose =>
    unfold step at h
    dsimp only at h
    split at h
    · cases h
      exact .stateKept nofun
    · next hunknown =>
      cases h
      exact .searchBegun (Bool.eq_false_iff.mpr hunknown)
  | awaitTurn purpose =>
    unfold step at h
    dsimp only at h
    split at h
    · next hknown =>
      cases h
      exact .searchFound rfl hknown
    · split at h
      · cases h
      · cases h
        exact .stateKept fun _ => rfl
  | search purpose => exact stepEffect_search h
  | lockConnect token =>
    unfold step at h
    dsimp only at h
    split at h
    · cases h
    · split at h
      · cases h
        exact .stateKept nofun
      · split at h
        · cases h
          exact .stateKept nofun
        · cases h
          exact .stateKept nofun
  | connectBus token endpoint =>
    unfold step at h
    dsimp only at h
    split at h
    · cases h
      exact .stateKept nofun
    · cases h
      exact .stateKept nofun
  | subscribeInbox =>
    unfold step at h
    dsimp only at h
    split at h
    · cases h
      exact .stateKept nofun
    · cases h
      exact .stateKept nofun
  -- no other step has the state say that the authority is up
  | setConnected =>
    cases h
    exact .connected
  | lockDisconnect =>
    unfold step at h
    dsimp only at h
    split at h
    · cases h
    · split at h
      · cases h
        exact .stateKept nofun
      · cases h
        exact .stateKept nofun
  | cancelDispatch =>
    cases h
    exact .stateKept nofun
  | unsubscribeInbox =>
    cases h
    exact .stateKept nofun
  | disconnectBus =>
    cases h
    exact .stateKept nofun
  | resetState =>
    cases h
    exact .reset
  | done result => cases h

/-- A step of a search leaves the state of an authority that is up as it is. -/
theorem StepEffect.state_of_connected (h : a.StepEffect stage a' stage')
    (hsearch : stage.isInitializing = true) (hup : a.state.value = .connected) :
    a'.state = a.state := by
  cases h with
  | searchBegun _ => simp [beginSearch, Watched.modify, hup]
  | searchFound _ _ => simp [endSearch, Watched.modify, hup]
  | searchGivenUp _ => simp [endSearch, Watched.modify, hup]
  | connected => cases hsearch
  | reset => cases hsearch
  | stateKept _ => rfl

end Authority

/-! ## Overlapping calls -/

/-- An authority and the calls that were made, by where they stand, the oldest first. -/
structure Overlap where
  authority : Authority
  calls : List Authority.Standing := []

namespace Overlap

open Authority (Purpose Standing StepInput StepEffect)

inductive Action where
  /-- A new call that searches for the endpoints. -/
  | locate
  /-- A new call to come up. -/
  | connect (token : String)
  /-- A new call to leave. -/
  | disconnect
  /-- A call takes its next step. -/
  | step (place : Nat) (f : StepInput)
  /-- The bus changes: the connection is lost, messages come, the transport fails. -/
  | rewire (bus : Bus)

/-- Something happens, if it can. -/
def act (s : Overlap) : Action → Option Overlap
  | .locate => some { s with calls := s.calls ++ [.checkKnown .locate] }
  | .connect token => some { s with calls := s.calls ++ [.lockConnect token] }
  | .disconnect => some { s with calls := s.calls ++ [.lockDisconnect] }
  | .step place f =>
    s.calls[place]?.bind fun stage =>
      (s.authority.step s.calls f stage).map fun next => ⟨next.1, s.calls.set place next.2⟩
  | .rewire bus => some { s with authority := { s.authority with bus } }

/-- One state leads to another if something happens, or many things do. -/
def Leads : Overlap → Overlap → Prop :=
  Relation.ReflTransGen fun s s' => ∃ action, s.act action = some s'

def run (s : Overlap) : List Action → Option Overlap
  | [] => some s
  | action :: actions => (s.act action).bind fun next => next.run actions

variable {s s' : Overlap} {action : Action} {a a' : Authority} {f : StepInput}
  {stage stage' : Standing}

theorem Leads.of_run {actions : List Action} (h : s.run actions = some s') : s.Leads s' := by
  induction actions generalizing s with
  | nil =>
    cases h
    exact .refl
  | cons action actions ih =>
    obtain ⟨next, hact, hrest⟩ := Option.bind_eq_some_iff.mp h
    exact .head ⟨action, hact⟩ (ih hrest)

/-- A step of a call is one of those that a call can take. -/
theorem act_step_cases {place : Nat} (h : s.act (.step place f) = some s') :
    ∃ stage a' stage', s.calls[place]? = some stage ∧
      s.authority.step s.calls f stage = some (a', stage') ∧
      s' = ⟨a', s.calls.set place stage'⟩ := by
  obtain ⟨stage, hstage, hstep⟩ := Option.bind_eq_some_iff.mp h
  obtain ⟨⟨a', stage'⟩, hnext, rfl⟩ := Option.map_eq_some_iff.mp hstep
  exact ⟨stage, a', stage', hstage, hnext, rfl⟩

/-! ## What the program runs -/

section
variable {before : List Standing} (hbefore : ∀ stage ∈ before, stage.isDone = true)

theorem leads_step (h : a.step (before ++ [stage]) f stage = some (a', stage')) :
    (⟨a, before ++ [stage]⟩ : Overlap).Leads ⟨a', before ++ [stage']⟩ := by
  refine .single ⟨.step before.length f, ?_⟩
  unfold act
  dsimp only
  rw [List.getElem?_append_right (Nat.le_refl _), Nat.sub_self]
  simp [h]

include hbefore in
/-- Calls that are done neither search nor keep others out. -/
theorem any_done : before.any Standing.isSearching = false ∧ before.any Standing.holdsLock = false :=
  ⟨List.any_eq_false.mpr fun stage hstage =>
      Bool.eq_false_iff.mp (Standing.of_isDone (hbefore stage hstage)).1,
    List.any_eq_false.mpr fun stage hstage =>
      Bool.eq_false_iff.mp (Standing.of_isDone (hbefore stage hstage)).2.2⟩

include hbefore in
/-- A search that nothing comes between goes as one. -/
theorem leads_locate (a : Authority) (w : Web) (purpose : Purpose) :
    (⟨a, before ++ [.checkKnown purpose]⟩ : Overlap).Leads
      ⟨(a.locate w).2.1, before ++ [(a.locate w).2.1.afterSearch purpose (a.locate w).1]⟩ := by
  unfold Authority.locate
  split
  · next hknown =>
    refine leads_step (f := {}) ?_
    unfold Authority.step
    exact if_pos hknown
  · next hunknown =>
    obtain ⟨call, hresult, hkept, -⟩ := a.beginSearch.discovery.exists_call_locate w
    -- three steps, with nothing in between: the first look, the turn and the search
    have hbegin : (⟨a, before ++ [.checkKnown purpose]⟩ : Overlap).Leads
        ⟨a.beginSearch, before ++ [.awaitTurn purpose]⟩ := by
      refine leads_step (f := {}) ?_
      unfold Authority.step
      exact if_neg hunknown
    have hturn : (⟨a.beginSearch, before ++ [.awaitTurn purpose]⟩ : Overlap).Leads
        ⟨a.beginSearch, before ++ [.search purpose]⟩ := by
      refine leads_step (f := {}) ?_
      unfold Authority.step
      refine (if_neg hunknown).trans (if_neg ?_)
      simp [(any_done hbefore).1, Standing.isSearching]
    refine hbegin.trans (hturn.trans (leads_step (f := { call }) ?_))
    rcases hlocate : a.beginSearch.discovery.locate w with ⟨result, discovery, w'⟩
    rw [hlocate] at hresult hkept
    dsimp only at hresult hkept
    unfold Authority.step
    dsimp only
    rw [hlocate, ← hresult]
    rw [Discovery.ask] at hkept
    rw [← hkept]
    cases result with
    | ok endpoints => rfl
    | error e => cases purpose <;> rfl

/-- Connecting the bus and serving the inbox goes as one if nothing comes between. -/
theorem leads_serve (a : Authority) (before : List Standing) (admission : Admission)
    (token endpoint : String) (givenUp : Bool) :
    (⟨a, before ++ [.connectBus token endpoint]⟩ : Overlap).Leads
      ⟨(a.serve admission token endpoint givenUp).2,
        before ++ [.done (a.serve admission token endpoint givenUp).1]⟩ := by
  unfold Authority.serve
  rcases hconnect : a.bus.connect admission token endpoint with ⟨_ | _, bus⟩
  · refine leads_step (f := { admission }) ?_
    simp only [Authority.step, hconnect]
  -- the broker lets the authority in, and what is left is the subscription
  · have hdial : (⟨a, before ++ [.connectBus token endpoint]⟩ : Overlap).Leads
        ⟨{ a with bus }, before ++ [.subscribeInbox]⟩ := by
      refine leads_step (f := { admission }) ?_
      simp only [Authority.step, hconnect]
    refine hdial.trans ?_
    dsimp only
    rcases hsubscribe : bus.subscribe a.inbox a.inbox with ⟨_ | _, listening⟩
    · refine leads_step (f := {}) ?_
      unfold Authority.step
      dsimp only
      rw [show ({ a with bus } : Authority).inbox = a.inbox from rfl, hsubscribe]
    · have hlisten : (⟨{ a with bus }, before ++ [.subscribeInbox]⟩ : Overlap).Leads
          ⟨{ a with bus := listening }, before ++ [.setConnected]⟩ := by
        refine leads_step (f := {}) ?_
        unfold Authority.step
        dsimp only
        rw [show ({ a with bus } : Authority).inbox = a.inbox from rfl, hsubscribe]
      exact hlisten.trans (leads_step (f := { givenUp }) rfl)

include hbefore in
/-- **A call to come up** that nothing comes between goes as one. -/
theorem leads_connect (a : Authority) (admission : Admission) (token : String) (w : Web) :
    (⟨a, before ++ [.lockConnect token]⟩ : Overlap).Leads
      ⟨(a.connect admission token w).2.1, before ++ [.done (a.connect admission token w).1]⟩ := by
  -- nobody else holds the lock, for all other calls have returned
  have hfree : ¬ (before ++ [Standing.lockConnect token]).any Standing.holdsLock = true := by
    simp [(any_done hbefore).2, Standing.holdsLock]
  unfold Authority.connect
  split
  · next hup =>
    refine leads_step (f := {}) ?_
    unfold Authority.step
    exact (if_neg hfree).trans (if_pos hup)
  · next hdown =>
    split
    · next endpoint hbroker =>
      have henter : (⟨a, before ++ [.lockConnect token]⟩ : Overlap).Leads
          ⟨a, before ++ [.connectBus token endpoint]⟩ := by
        refine leads_step (f := {}) ?_
        unfold Authority.step
        dsimp only
        rw [if_neg hfree, if_neg hdown, hbroker]
      exact henter.trans (leads_serve ..)
    · next hbroker =>
      have henter : (⟨a, before ++ [.lockConnect token]⟩ : Overlap).Leads
          ⟨a, before ++ [.checkKnown (.connect token)]⟩ := by
        refine leads_step (f := {}) ?_
        unfold Authority.step
        dsimp only
        rw [if_neg hfree, if_neg hdown, hbroker]
      refine henter.trans ((leads_locate hbefore a w (.connect token)).trans ?_)
      rcases hlocate : a.locate w with ⟨_ | _, found, w'⟩
      · exact .refl
      · dsimp only
        unfold Authority.afterSearch
        cases hfound : found.discovery.brokerUri? with
        | none => exact .refl
        | some endpoint => exact leads_serve ..

include hbefore in
/-- **A call to leave** that nothing comes between goes as one. -/
theorem leads_disconnect (a : Authority) :
    (⟨a, before ++ [.lockDisconnect]⟩ : Overlap).Leads
      ⟨a.disconnect, before ++ [.done (.ok ())]⟩ := by
  have hfree : ¬ (before ++ [Standing.lockDisconnect]).any Standing.holdsLock = true := by
    simp [(any_done hbefore).2, Standing.holdsLock]
  unfold Authority.disconnect
  split
  · next hdown =>
    refine leads_step (f := {}) ?_
    unfold Authority.step
    exact (if_neg hfree).trans (if_pos hdown)
  · next hup =>
    -- the steps after the lock look at nothing, so that each of them is an equation
    have henter : (⟨a, before ++ [.lockDisconnect]⟩ : Overlap).Leads
        ⟨a, before ++ [.cancelDispatch]⟩ := by
      refine leads_step (f := {}) ?_
      unfold Authority.step
      exact (if_neg hfree).trans (if_neg hup)
    exact henter.trans <| (leads_step (f := {}) rfl).trans <| (leads_step (f := {}) rfl).trans <|
      (leads_step (f := {}) rfl).trans (leads_step (f := {}) rfl)

end

/-! ## What the state says -/

/-- The state agrees with what was found, and says that a search is on only while one is. -/
structure Agrees (s : Overlap) : Prop where
  found : s.authority.discovery.isInitialized = true →
    s.authority.state.value = .initialized ∨ s.authority.state.value = .connected
  unfound : s.authority.discovery.isInitialized = false → s.authority.state.value ≠ .initialized
  sought : s.authority.state.value = .initializing → ∃ stage ∈ s.calls, stage.hasBegun = true

/-- A state that says that no search is on needs no call that is at one. -/
theorem Agrees.of_ne (hne : s.authority.state.value ≠ .initializing)
    (hfound : s.authority.discovery.isInitialized = true →
      s.authority.state.value = .initialized ∨ s.authority.state.value = .connected)
    (hunfound : s.authority.discovery.isInitialized = false →
      s.authority.state.value ≠ .initialized) : s.Agrees :=
  ⟨hfound, hunfound, fun h => absurd h hne⟩

/-- More calls do no harm. -/
theorem Agrees.append (h : s.Agrees) (more : List Standing) :
    Agrees { s with calls := s.calls ++ more } :=
  ⟨h.found, h.unfound, fun hsought =>
    let ⟨stage, hstage, hseeking⟩ := h.sought hsought
    ⟨stage, List.mem_append_left _ hstage, hseeking⟩⟩

/-- Some call is still at a search after a call has taken a step that does not end its own. -/
theorem exists_hasBegun_set {calls : List Standing} {place : Nat}
    (hplace : calls[place]? = some stage)
    (hgoes : stage.hasBegun = true → stage'.hasBegun = true)
    (h : ∃ other ∈ calls, other.hasBegun = true) :
    ∃ other ∈ calls.set place stage', other.hasBegun = true := by
  obtain ⟨hlt, hget⟩ := List.getElem?_eq_some_iff.mp hplace
  obtain ⟨other, hother, hseeking⟩ := h
  obtain ⟨i, hi, rfl⟩ := List.mem_iff_getElem.mp hother
  by_cases hsame : i = place
  · subst hsame
    rw [hget] at hseeking
    exact ⟨stage', List.mem_set hlt _, hgoes hseeking⟩
  · refine ⟨calls[i], List.mem_iff_getElem.mpr ⟨i, by simpa using hi, ?_⟩, hseeking⟩
    rw [List.getElem_set_ne (Ne.symm hsame)]

/-- A step of a call at its place keeps the agreement.  Only the beginning of a search has to show
a call that is at one: after every other step that changes the state, the state says that no search
is on. -/
theorem Agrees.stepEffect (h : s.Agrees) {place : Nat} (hplace : s.calls[place]? = some stage)
    (heffect : s.authority.StepEffect stage a' stage') :
    Agrees ⟨a', s.calls.set place stage'⟩ := by
  cases heffect with
  | searchBegun hunknown =>
    have hlt := (List.getElem?_eq_some_iff.mp hplace).1
    refine ⟨fun hknown => ?_, fun _ => ?_, fun _ => ⟨_, List.mem_set hlt _, rfl⟩⟩
    · exact absurd (hunknown.symm.trans hknown) (by decide)
    · rw [Authority.value_beginSearch]
      split
      · exact nofun
      · exact h.unfound hunknown
  -- from here on the endpoints are known, and the state says so unless the authority is up
  | @searchFound _ _ discovery _ hknown =>
    have hvalue := Authority.value_endSearch_true { s.authority with discovery }
    refine .of_ne ?_ (fun _ => ?_) fun hunknown => ?_
    · rw [hvalue]
      split <;> exact nofun
    · rw [hvalue]
      split
      · exact .inr rfl
      · exact .inl rfl
    · exact absurd (hunknown.symm.trans hknown) (by decide)
  | searchGivenUp hunknown =>
    refine .of_ne ?_ (fun hknown => ?_) fun _ => ?_
    · rw [Authority.value_endSearch_false]
      split
      · exact nofun
      · next hother => exact hother
    · exact absurd (hunknown.symm.trans hknown) (by decide)
    · rw [Authority.value_endSearch_false]
      split
      · exact nofun
      · exact h.unfound hunknown
  | connected => exact .of_ne nofun (fun _ => .inr rfl) fun _ => nofun
  -- the state at rest is computed anew from what is known
  | reset =>
    refine .of_ne ?_ (fun hknown => ?_) fun hunknown => ?_
    · show s.authority.restingState ≠ _
      unfold Authority.restingState
      split <;> exact nofun
    · show s.authority.restingState = _ ∨ _
      unfold Authority.restingState
      exact .inl (if_pos hknown)
    · show s.authority.restingState ≠ _
      unfold Authority.restingState
      rw [if_neg (Bool.eq_false_iff.mp hunknown)]
      exact nofun
  | stateKept hseeking =>
    exact ⟨h.found, h.unfound, fun hsought =>
      exists_hasBegun_set hplace hseeking (h.sought hsought)⟩

theorem Agrees.act (h : s.Agrees) (hact : s.act action = some s') : s'.Agrees := by
  cases action with
  | locate =>
    cases hact
    exact h.append _
  | connect token =>
    cases hact
    exact h.append _
  | disconnect =>
    cases hact
    exact h.append _
  -- a new call and another bus leave what is known as it was; the rest is a step
  | step place f =>
    obtain ⟨stage, a', stage', hplace, hstep, rfl⟩ := act_step_cases hact
    exact h.stepEffect hplace (Authority.stepEffect_of_step hstep)
  | rewire bus =>
    cases hact
    exact ⟨h.found, h.unfound, h.sought⟩

theorem Agrees.of_leads (h : s.Agrees) (hleads : s.Leads s') : s'.Agrees := by
  induction hleads with
  | refl => exact h
  | tail _ hstep ih =>
    obtain ⟨action, hact⟩ := hstep
    exact ih.act hact

theorem agrees_of_create {cipher : Cipher} {config : DiscoveryConfig}
    (hcreate : Authority.create cipher config = .ok a) : Agrees ⟨a, []⟩ := by
  unfold Authority.create at hcreate
  cases hdiscovery : Discovery.create config with
  | error e =>
    rw [hdiscovery] at hcreate
    cases hcreate
  | ok discovery =>
    rw [hdiscovery] at hcreate
    cases hcreate
    obtain ⟨-, -, -, -, -, hfresh⟩ := Discovery.of_create hdiscovery
    have hunknown : discovery.isInitialized = false := by
      rw [Discovery.isInitialized, hfresh]
      rfl
    have hnone : ¬ discovery.isInitialized = true := Bool.eq_false_iff.mp hunknown
    exact .of_ne nofun (fun hknown => absurd hknown hnone) fun _ => nofun

/-- **What the state says.**  However calls on a new authority overlap, whatever they find and
however they are given up: once all of them are done, the state does not say that a search is on,
and unless the authority is up it says that the endpoints are known exactly if they are.  And no
step of a search touches the state of an authority that is up. -/
theorem state_of_leads {cipher : Cipher} {config : DiscoveryConfig}
    (hcreate : Authority.create cipher config = .ok a) (h : (⟨a, []⟩ : Overlap).Leads s) :
    ((∀ stage ∈ s.calls, stage.isDone = true) →
      s.authority.state.value ≠ .initializing ∧
        (s.authority.state.value ≠ .connected →
          (s.authority.state.value = .initialized ↔ s.authority.discovery.isInitialized = true))) ∧
      ∀ place f stage s', s.calls[place]? = some stage → stage.isInitializing = true →
        s.act (.step place f) = some s' → s.authority.state.value = .connected →
          s'.authority.state = s.authority.state := by
  have hagrees : s.Agrees := (agrees_of_create hcreate).of_leads h
  refine ⟨fun hdone => ⟨fun hsought => ?_, fun hdown => ⟨fun hvalue => ?_, fun hknown => ?_⟩⟩, ?_⟩
  · obtain ⟨stage, hstage, hseeking⟩ := hagrees.sought hsought
    exact absurd (hseeking.symm.trans (Standing.of_isDone (hdone stage hstage)).2.1) (by decide)
  · by_contra hunknown
    exact hagrees.unfound (Bool.eq_false_iff.mpr hunknown) hvalue
  · exact (hagrees.found hknown).resolve_right hdown
  · intro place f stage s' hplace hsearch hact hup
    obtain ⟨_, a', stage', hplace', hstep, rfl⟩ := act_step_cases hact
    cases hplace.symm.trans hplace'
    exact (Authority.stepEffect_of_step hstep).state_of_connected hsearch hup

/-- A search begins, the authority comes up at a broker that takes precedence, the search is given
up, and the authority leaves: it was up when the search ended, and in the end it is as it was at
first. -/
theorem state_of_leads_given_up :
    ∃ a s s' t, Authority.create .plain
        { authorityUri := "http://auth.example.com", brokerUri := some "nats://broker" } = .ok a ∧
      (⟨a, []⟩ : Overlap).run [.locate, .connect "token", .step 0 {}, .step 1 {}, .step 1 {},
        .step 0 {}, .step 1 {}, .step 1 {}] = some s ∧
      s.authority.state.value = .connected ∧ s.act (.step 0 {}) = some s' ∧
      s'.authority.state = s.authority.state ∧
      s'.run [.disconnect, .step 2 {}, .step 2 {}, .step 2 {}, .step 2 {}, .step 2 {}] = some t ∧
      (∀ stage ∈ t.calls, stage.isDone = true) ∧ t.authority.state.value ≠ .connected ∧
      t.authority.state.value ≠ .initializing ∧
      (t.authority.state.value = .initialized ↔ t.authority.discovery.isInitialized = true) := by
  let discovery : Discovery :=
    { id := "auth.example.com"
      authorityUri := { scheme := "http", host := some "auth.example.com", path := .rooted [""] }
      internalUri := none, brokerOverride := some "nats://broker", backoff := .standard }
  let a : Authority :=
    { discovery, topics := ⟨discovery.id, discovery.id⟩, cipher := .plain }
  have hdiscovery : Discovery.create
      { authorityUri := "http://auth.example.com", brokerUri := some "nats://broker" } =
        .ok discovery := by
    decide +kernel
  have hcreate : Authority.create .plain
      { authorityUri := "http://auth.example.com", brokerUri := some "nats://broker" } =
        .ok a := by
    unfold Authority.create
    rw [hdiscovery]
    rfl
  -- the run is evaluated once, for everything that is said of its states
  have hend : (((⟨a, []⟩ : Overlap).run [.locate, .connect "token", .step 0 {}, .step 1 {},
      .step 1 {}, .step 0 {}, .step 1 {}, .step 1 {}]).bind fun s =>
        (s.act (.step 0 {})).bind fun s' =>
          (s'.run [.disconnect, .step 2 {}, .step 2 {}, .step 2 {}, .step 2 {}, .step 2 {}]).map
            fun t => (s.calls[0]?.map Standing.isInitializing, s.authority.state.value,
              t.calls.all Standing.isDone, t.authority.state.value)) =
      some (some true, .connected, true, .uninitialized) := by
    decide +kernel
  obtain ⟨s, hs, hend⟩ := Option.bind_eq_some_iff.mp hend
  obtain ⟨s', hact, hend⟩ := Option.bind_eq_some_iff.mp hend
  obtain ⟨t, ht, hend⟩ := Option.map_eq_some_iff.mp hend
  simp only [Prod.mk.injEq] at hend
  obtain ⟨hsearch, hup, hdone, hdown⟩ := hend
  obtain ⟨stage, hstage, hsearch⟩ := Option.map_eq_some_iff.mp hsearch
  have hleads : (⟨a, []⟩ : Overlap).Leads t :=
    (Leads.of_run hs).trans (.head ⟨_, hact⟩ (Leads.of_run ht))
  have hkept := (state_of_leads hcreate (.of_run hs)).2 0 {} stage s' hstage hsearch hact hup
  have hall : ∀ stage ∈ t.calls, stage.isDone = true := List.all_eq_true.mp hdone
  have hother : t.authority.state.value ≠ .connected := by
    rw [hdown]
    decide
  obtain ⟨hrests, hsays⟩ := (state_of_leads hcreate hleads).1 hall
  exact ⟨a, s, s', t, hcreate, hs, hup, hact, hkept, ht, hall, hother, hrests, hsays hother⟩

end Overlap

end Coordination
