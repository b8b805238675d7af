import Coordination.Proofs.Credential.Traffic
/-!
# The phases of a call

A call that is the only one of a client goes from phase to phase.  Each attempt takes a place, sends
a request and waits while the request travels; then either an answer travels back, or the place is
given up when the time of the attempt has run out.  In each phase one action is due, and it leads to
the next phase.
-/

namespace Coordination.Inquiry

open CredentialClient (unanswered)

/-- How far a call has come. -/
inductive Phase where
  /-- It was made. -/
  | lookup
  /-- It is about to take a place, after so many attempts. -/
  | enlist (before : Nat)
  /-- It is about to ask, after so many attempts. -/
  | send (before : Nat)
  /-- Its request is under way, after so many attempts. -/
  | asked (before : Nat) (leg : Leg)
  /-- There is no answer to its request. -/
  | silent (before : Nat)
  /-- It is about to give its place up. -/
  | withdraw (before : Nat)
  /-- The answer is under way. -/
  | answered (value ciphertext : String) (leg : Leg)
  /-- The client has kept the value of the answer. -/
  | kept (value ciphertext : String)
  /-- The call was told the value. -/
  | told (value ciphertext : String)
  /-- It has returned the value. -/
  | succeeded (value ciphertext : String)
  /-- It has made all its attempts. -/
  | failed

namespace Phase

/-- Where the call stands in its own view. -/
def stage (name : String) : Phase → Stage
  | lookup => .lookup
  | enlist before => .enlist (before + 1)
  | send before => .send (before + 1) none
  | asked before _ => .wait (before + 1) none
  | silent before => .wait (before + 1) none
  | withdraw before => .withdraw (before + 1) none
  | answered _ _ _ => .wait 1 none
  | kept _ _ => .wait 1 none
  | told value _ => .wait 1 (some value)
  | succeeded value _ => .done (.ok value)
  | failed => .done (.error (unanswered name))

/-- The attempt for which it has a place. -/
def place? : Phase → Option Nat
  | send before => some (before + 1)
  | asked before _ => some (before + 1)
  | silent before => some (before + 1)
  | answered _ _ _ => some 1
  | kept _ _ => some 1
  | _ => none

/-- What the client has kept and not told. -/
def untold (name : String) : Phase → List (String × String)
  | kept value _ => [(name, value)]
  | _ => []

/-- Whether it has returned. -/
def IsLast : Phase → Prop
  | succeeded _ _ => True
  | failed => True
  | _ => False

/-- What is on the wire.  The broker has taken one request for each attempt, and at most one answer
was sealed. -/
def load (start : Inquiry) (name : String) : Phase → Load
  | lookup => ⟨none, none, [], 0⟩
  | enlist before => ⟨none, none, List.replicate before (start.request name), 0⟩
  | send before => ⟨none, none, List.replicate before (start.request name), 0⟩
  | asked before .accepted =>
    ⟨some (start.request name, .accepted), none, List.replicate before (start.request name), 0⟩
  | asked before leg =>
    ⟨some (start.request name, leg), none, List.replicate (before + 1) (start.request name), 0⟩
  | silent before => ⟨none, none, List.replicate (before + 1) (start.request name), 0⟩
  | withdraw before => ⟨none, none, List.replicate (before + 1) (start.request name), 0⟩
  | answered _ ciphertext .accepted =>
    ⟨none, some (start.response name ciphertext, .accepted), [start.request name], 1⟩
  | answered _ ciphertext leg =>
    ⟨none, some (start.response name ciphertext, leg),
      [start.request name, start.response name ciphertext], 1⟩
  | kept _ ciphertext => ⟨none, none, [start.request name, start.response name ciphertext], 1⟩
  | told _ ciphertext => ⟨none, none, [start.request name, start.response name ciphertext], 1⟩
  | succeeded _ ciphertext => ⟨none, none, [start.request name, start.response name ciphertext], 1⟩
  | failed => ⟨none, none, List.replicate start.client.config.attempts (start.request name), 0⟩

/-- Whether a call can come to a phase: a second attempt is made only if there is no answer. -/
def Valid (start : Inquiry) (name : String) : Phase → Prop
  | lookup => True
  | enlist before => before < start.client.config.attempts ∧ (before = 0 ∨ start.answer? name = none)
  | send before => before < start.client.config.attempts ∧ (before = 0 ∨ start.answer? name = none)
  | asked before _ =>
    before < start.client.config.attempts ∧ (before = 0 ∨ start.answer? name = none)
  | silent before => before < start.client.config.attempts ∧ start.answer? name = none
  | withdraw before => before < start.client.config.attempts ∧ start.answer? name = none
  | answered value ciphertext _ => start.answer? name = some (value, ciphertext)
  | kept value ciphertext => start.answer? name = some (value, ciphertext)
  | told value ciphertext => start.answer? name = some (value, ciphertext)
  | succeeded value ciphertext => start.answer? name = some (value, ciphertext)
  | failed => start.answer? name = none

def action (start : Inquiry) : Phase → Action
  | asked _ .accepted => .collectClient
  | asked _ .routed => .forwardAuthority
  | asked _ .arrived => .serve
  | answered _ _ .accepted => .collectAuthority
  | answered _ _ .routed => .forwardClient
  | answered _ _ .arrived => .keep
  | kept _ _ => .tell
  | _ => .call start.client.made

def next (start : Inquiry) (name : String) : Phase → Phase
  | lookup => enlist 0
  | enlist before => send before
  | send before => asked before .accepted
  | asked before .accepted => asked before .routed
  | asked before .routed => asked before .arrived
  | asked before .arrived =>
    match start.answer? name with
    | some (value, ciphertext) => answered value ciphertext .accepted
    | none => silent before
  | silent before => withdraw before
  | withdraw before =>
    if before + 1 < start.client.config.attempts then enlist (before + 1) else failed
  | answered value ciphertext .accepted => answered value ciphertext .routed
  | answered value ciphertext .routed => answered value ciphertext .arrived
  | answered value ciphertext .arrived => kept value ciphertext
  | kept value ciphertext => told value ciphertext
  | told value ciphertext => succeeded value ciphertext
  | succeeded value ciphertext => succeeded value ciphertext
  | failed => failed

/-- How many steps are left at most.  An attempt takes seven. -/
def rank (start : Inquiry) : Phase → Nat
  | lookup => 7 * start.client.config.attempts + 4
  | enlist before => 7 * (start.client.config.attempts - before) + 3
  | send before => 7 * (start.client.config.attempts - before) + 2
  | asked before .accepted => 7 * (start.client.config.attempts - before) + 1
  | asked before .routed => 7 * (start.client.config.attempts - before)
  | asked before .arrived => 7 * (start.client.config.attempts - before) - 1
  | silent before => 7 * (start.client.config.attempts - before) - 2
  | withdraw before => 7 * (start.client.config.attempts - before) - 3
  | answered _ _ .accepted => 5
  | answered _ _ .routed => 4
  | answered _ _ .arrived => 3
  | kept _ _ => 2
  | told _ _ => 1
  | succeeded _ _ => 0
  | failed => 0

variable {start : Inquiry} {name value ciphertext : String} {φ : Phase}

theorem next_arrived_of_some (hanswer : start.answer? name = some (value, ciphertext))
    (before : Nat) :
    (asked before .arrived).next start name = answered value ciphertext .accepted := by
  simp only [next, hanswer]

theorem next_arrived_of_none (hnone : start.answer? name = none) (before : Nat) :
    (asked before .arrived).next start name = silent before := by
  simp only [next, hnone]

theorem next_withdraw (start : Inquiry) (name : String) (before : Nat) :
    (withdraw before).next start name =
      if before + 1 < start.client.config.attempts then enlist (before + 1) else failed := rfl

/-- The next phase is one to which a call can come. -/
theorem Valid.next (hattempts : 1 ≤ start.client.config.attempts) (h : φ.Valid start name) :
    (φ.next start name).Valid start name := by
  cases φ with
  | lookup => exact ⟨hattempts, .inl rfl⟩
  -- a request that has arrived is answered, or it never will be
  | asked before leg =>
    cases leg with
    | arrived =>
      cases hanswer : start.answer? name with
      | none =>
        rw [next_arrived_of_none hanswer]
        exact ⟨h.1, hanswer⟩
      | some pair =>
        rw [next_arrived_of_some hanswer]
        exact hanswer
    | _ => exact h
  | withdraw before =>
    rw [next_withdraw]
    split
    · next hmore => exact ⟨hmore, .inr h.2⟩
    · exact h.2
  | answered value ciphertext leg => cases leg <;> exact h
  | _ => exact h

theorem Valid.rank_next (h : φ.Valid start name) (hlast : ¬ φ.IsLast) :
    (φ.next start name).rank start < φ.rank start := by
  cases φ with
  | asked before leg =>
    have hbefore : before < start.client.config.attempts := h.1
    cases leg with
    | arrived =>
      cases hanswer : start.answer? name with
      | none =>
        rw [next_arrived_of_none hanswer]
        simp only [rank]
        omega
      | some pair =>
        rw [next_arrived_of_some hanswer]
        simp only [rank]
        omega
    | _ =>
      simp only [Phase.next, rank]
      omega
  | silent before =>
    have hbefore : before < start.client.config.attempts := h.1
    simp only [Phase.next, rank]
    omega
  | withdraw before =>
    -- the seven steps of another attempt are paid for by the attempt that is over
    have hbefore : before < start.client.config.attempts := h.1
    rw [next_withdraw]
    split
    · simp only [rank]
      omega
    · simp only [rank]
      omega
  | answered value ciphertext leg => cases leg <;> simp [Phase.next, rank]
  | succeeded value ciphertext => exact absurd trivial hlast
  | failed => exact absurd trivial hlast
  | _ => simp [Phase.next, rank]

end Phase

/-! ## Client and wire in a phase -/

/-- The call as the client knows it. -/
def callAt (start : Inquiry) (name : String) (stage : Stage) (deadline : Nat) : Call :=
  ⟨start.client.made, name, stage, deadline⟩

/-- The call is in a phase. -/
structure At (start : Inquiry) (name : String) (φ : Phase) (s : Inquiry) : Prop where
  valid : φ.Valid start name
  carries : start.Carries (φ.load start name) s
  call : ∃ deadline, s.client.Sole (start.callAt name (φ.stage name) deadline)
  waiters : ∀ attempt, φ.place? = some attempt →
    s.client.waiters name = [⟨start.client.made, attempt⟩]
  cache : φ = .lookup → s.client.cache.lookup name = none
  untold : s.client.untold = φ.untold name

variable {start s : Inquiry} {name value ciphertext : String} {φ ψ : Phase} {before : Nat}

/-- A call that was just made is in the first phase. -/
theorem Started.at_lookup (h : start.Started) (name : String) :
    start.At name .lookup (start.ask name) where
  valid := trivial
  carries := h.carries.of_client rfl rfl rfl
  call := by
    refine ⟨0, start.client.calls, rfl, fun j hj => ?_⟩
    -- earlier calls have returned, and their numbers are smaller
    obtain ⟨hdone, hid⟩ := h.calls j hj
    exact ⟨Nat.ne_of_lt hid, hdone⟩
  waiters := fun _ hplace => nomatch hplace
  cache := fun _ => by
    show start.client.cache.lookup name = none
    rw [h.cache]
    rfl
  untold := h.untold

/-- A step of the call is what the client makes of it. -/
theorem act_call {k : Call} (hsole : s.client.Sole k) :
    s.act (.call k.id) =
      (s.client.step s.bus k).map fun p => { s with client := p.1, bus := p.2 } := by
  show ((s.client.call? k.id).bind (s.client.step s.bus)).map _ = _
  rw [hsole.call?_eq, Option.bind_some]

theorem act_call_of_step {k : Call} (hsole : s.client.Sole k) {c : CredentialClient} {b : Bus}
    (hstep : s.client.step s.bus k = some (c, b)) :
    s.act (.call k.id) = some { s with client := c, bus := b } := by
  rw [act_call hsole, hstep]
  rfl

/-- A message that goes a step on its way does not concern the client. -/
theorem At.of_carries {action : Action} (h : start.At name φ s)
    (hcarries : ∃ s', s.act action = some s' ∧ s'.client = s.client ∧
      start.Carries (ψ.load start name) s')
    (hvalid : ψ.Valid start name) (hstage : ψ.stage name = φ.stage name)
    (hplace : ψ.place? = φ.place?) (huntold : ψ.untold name = φ.untold name)
    (hlookup : ψ ≠ .lookup) : ∃ s', s.act action = some s' ∧ start.At name ψ s' := by
  obtain ⟨s', hact, hclient, hcarries⟩ := hcarries
  refine ⟨s', hact, ?_⟩
  constructor
  · exact hvalid
  · exact hcarries
  · rw [hclient, hstage]
    exact h.call
  · rw [hclient, hplace]
    exact h.waiters
  · exact fun heq => absurd heq hlookup
  · rw [hclient, huntold]
    exact h.untold

/-! ## Steps of the call -/

/-- A step of the call that only changes its stage, and perhaps the places, does not concern the
wire. -/
theorem At.goes_on {deadline : Nat} {places : List (String × List Ticket)}
    (h : start.At name φ s)
    (hsole : s.client.Sole (start.callAt name (φ.stage name) deadline))
    (hvalid : ψ.Valid start name) (hload : ψ.load start name = φ.load start name)
    (hplace : ∀ attempt, ψ.place? = some attempt →
      CredentialClient.waiters { s.client with pending := places } name =
        [⟨start.client.made, attempt⟩])
    (hlookup : ψ ≠ .lookup) (huntold : ψ.untold name = φ.untold name) :
    start.At name ψ { s with
      client := CredentialClient.setCall { s.client with pending := places }
        (start.callAt name (ψ.stage name) deadline) } where
  valid := hvalid
  carries := by
    rw [hload]
    exact h.carries.of_client rfl rfl rfl
  call := ⟨deadline, CredentialClient.Sole.setCall hsole rfl⟩
  waiters := hplace
  cache := fun heq => absurd heq hlookup
  untold := by
    rw [huntold]
    exact h.untold

theorem At.lookup (hask : start.CanAsk name) (h : start.At name .lookup s) :
    ∃ s', s.act (.call start.client.made) = some s' ∧ start.At name (.enlist 0) s' := by
  obtain ⟨deadline, hsole⟩ := h.call
  have hstep := CredentialClient.step_lookup (k := start.callAt name .lookup deadline) rfl
    (h.cache rfl) s.bus
  have hattempt : s.client.attemptOr name 1 = .enlist 1 := by
    unfold CredentialClient.attemptOr
    rw [h.carries.config, if_pos hask.attempts]
  have hname : (start.callAt name .lookup deadline).name = name := rfl
  rw [hname, hattempt] at hstep
  refine ⟨_, act_call_of_step hsole hstep, ?_⟩
  exact h.goes_on hsole ⟨hask.attempts, .inl rfl⟩ rfl (fun _ hplace => nomatch hplace)
    (fun heq => nomatch heq) rfl

theorem At.enlist (h : start.At name (.enlist before) s) :
    ∃ s', s.act (.call start.client.made) = some s' ∧ start.At name (.send before) s' := by
  obtain ⟨deadline, hsole⟩ := h.call
  -- the call has no place, so all places are those of calls that have returned
  have hstep := CredentialClient.step_enlist
    (k := start.callAt name (.enlist (before + 1)) deadline) rfl
    (fun t _ => hsole.isOpen_of_place? rfl t) s.bus
  refine ⟨_, act_call_of_step hsole hstep, ?_⟩
  refine h.goes_on hsole h.valid rfl (fun attempt hplace => ?_) (fun heq => nomatch heq) rfl
  cases hplace
  exact s.client.waiters_setWaiters name [⟨start.client.made, before + 1⟩]

theorem At.send (h : start.At name (.send before) s) :
    ∃ s', s.act (.call start.client.made) = some s' ∧
      start.At name (.asked before .accepted) s' := by
  obtain ⟨deadline, hsole⟩ := h.call
  obtain ⟨b, hrequest, hcarries⟩ := h.carries.request name
  have hstep := CredentialClient.step_send
    (k := start.callAt name (.send (before + 1) none) deadline) rfl hrequest
  refine ⟨_, act_call_of_step hsole hstep, ?_⟩
  constructor
  · exact h.valid
  · exact hcarries.of_client rfl rfl rfl
  · exact ⟨_, hsole.setCall rfl⟩
  · exact h.waiters
  · exact fun heq => nomatch heq
  · exact h.untold

/-- A call that waits goes on when its time has run out, and not before. -/
theorem At.step_wait {attempt : Nat} (h : start.At name φ s) (deadline : Nat)
    (hstage : φ.stage name = .wait attempt none) (hplace : φ.place? = some attempt) (b : Bus) :
    s.client.step b (start.callAt name (φ.stage name) deadline) =
      if deadline ≤ s.client.now then
        some (s.client.setCall (start.callAt name (.withdraw attempt none) deadline), b)
      else none := by
  have hmem : (⟨start.client.made, attempt⟩ : Ticket) ∈ s.client.waiters name := by
    rw [h.waiters attempt hplace]
    exact List.mem_singleton_self _
  exact CredentialClient.step_wait_none (k := start.callAt name (φ.stage name) deadline) hstage
    hmem b

theorem At.silent (h : start.At name (.silent before) s)
    (hdue : ∀ k, s.client.call? start.client.made = some k → k.deadline ≤ s.client.now) :
    ∃ s', s.act (.call start.client.made) = some s' ∧ start.At name (.withdraw before) s' := by
  obtain ⟨deadline, hsole⟩ := h.call
  have hpast : deadline ≤ s.client.now := hdue _ hsole.call?_eq
  have hstep := h.step_wait deadline rfl rfl s.bus
  rw [if_pos hpast] at hstep
  refine ⟨_, act_call_of_step hsole hstep, ?_⟩
  exact h.goes_on hsole h.valid rfl (fun _ hplace => nomatch hplace) (fun heq => nomatch heq) rfl

/-- A call that gives its place up tries again, or has made all its attempts. -/
theorem At.withdraw (hask : start.CanAsk name) (h : start.At name (.withdraw before) s) :
    ∃ s', s.act (.call start.client.made) = some s' ∧
      start.At name (Phase.next start name (.withdraw before)) s' := by
  obtain ⟨deadline, hsole⟩ := h.call
  have hbefore : before < start.client.config.attempts := h.valid.1
  have hvalid := h.valid.next hask.attempts
  have hstep := CredentialClient.step_withdraw hsole rfl s.bus
  have hname : (start.callAt name (Phase.stage name (.withdraw before)) deadline).name = name := rfl
  rw [Phase.next_withdraw] at hvalid ⊢
  rw [hname] at hstep
  unfold CredentialClient.attemptOr at hstep
  rw [h.carries.config] at hstep
  by_cases hmore : before + 1 < start.client.config.attempts
  · -- there is another attempt
    rw [if_pos (Nat.succ_le_of_lt hmore)] at hstep
    rw [if_pos hmore] at hvalid ⊢
    refine ⟨_, act_call_of_step hsole hstep, ?_⟩
    exact h.goes_on hsole hvalid rfl (fun _ hplace => nomatch hplace) (fun heq => nomatch heq) rfl
  · -- this was the last attempt, so the broker has taken one request for each
    have hall : before + 1 = start.client.config.attempts := by omega
    have hload : Phase.failed.load start name = (Phase.withdraw before).load start name := by
      simp only [Phase.load, hall]
    rw [if_neg fun hle => hmore (Nat.lt_of_succ_le hle)] at hstep
    rw [if_neg hmore] at hvalid ⊢
    refine ⟨_, act_call_of_step hsole hstep, ?_⟩
    exact h.goes_on hsole hvalid hload (fun _ hplace => nomatch hplace) (fun heq => nomatch heq) rfl

theorem At.told (h : start.At name (.told value ciphertext) s) :
    ∃ s', s.act (.call start.client.made) = some s' ∧
      start.At name (.succeeded value ciphertext) s' := by
  obtain ⟨deadline, hsole⟩ := h.call
  have hstep := CredentialClient.step_wait_some (c := s.client)
    (k := start.callAt name (.wait 1 (some value)) deadline) rfl s.bus
  refine ⟨_, act_call_of_step hsole hstep, ?_⟩
  exact h.goes_on hsole h.valid rfl (fun _ hplace => nomatch hplace) (fun heq => nomatch heq) rfl

/-! ## Its answer -/

theorem At.arrived (hask : start.CanAsk name)
    (h : start.At name (.answered value ciphertext .arrived) s) :
    ∃ s', s.act .keep = some s' ∧ start.At name (.kept value ciphertext) s' := by
  obtain ⟨deadline, hsole⟩ := h.call
  obtain ⟨s', hact, hclient, hcarries⟩ := h.carries.keep hask h.valid
  have huntold : s.client.untold = [] := h.untold
  refine ⟨s', hact, ?_⟩
  constructor
  · exact h.valid
  · exact hcarries
  · rw [hclient]
    exact ⟨deadline, hsole⟩
  · rw [hclient]
    exact h.waiters
  · exact fun heq => nomatch heq
  · rw [hclient, huntold]
    rfl

theorem At.kept (h : start.At name (.kept value ciphertext) s) :
    ∃ s', s.act .tell = some s' ∧ start.At name (.told value ciphertext) s' := by
  obtain ⟨deadline, hsole⟩ := h.call
  have huntold : s.client.untold = [(name, value)] := h.untold
  obtain ⟨htold, -, hnone⟩ := CredentialClient.Sole.tell hsole rfl (h.waiters 1 rfl) huntold
  -- the value waits to be told, and nothing else does
  have hact : s.act .tell = some { s with client := s.client.tell } := by
    refine if_neg ?_
    rw [huntold]
    exact List.cons_ne_nil _ _
  refine ⟨_, hact, ?_⟩
  constructor
  · exact h.valid
  · refine h.carries.of_client ?_ ?_ ?_ <;>
    · unfold CredentialClient.tell
      rw [huntold]
      rfl
  · exact ⟨deadline, htold⟩
  · exact fun _ hplace => nomatch hplace
  · exact fun heq => nomatch heq
  · exact hnone

end Coordination.Inquiry
