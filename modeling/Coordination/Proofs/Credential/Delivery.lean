import Coordination.Proofs.Credential.Phases
/-!
# From the records to the client

In each phase of a call no action but the one that is due can happen in a timely run, and this one
can happen, at the latest when some time has passed.  So every run goes through the phases, and a
call returns what the records grant, or that nothing was found after all its attempts.
-/

namespace Coordination.Inquiry

open CredentialClient (unanswered)

variable {start s s' : Inquiry} {name : String} {φ ψ : Phase} {action : Action}
  {actions : List Action}

/-! ## Nothing but the action that is due -/

namespace Phase

theorem question_asked (start : Inquiry) (name : String) (before : Nat) (leg : Leg) :
    ((asked before leg).load start name).question = some (start.request name, leg) := by
  cases leg <;> rfl

theorem answer_answered (start : Inquiry) (name value ciphertext : String) (leg : Leg) :
    ((answered value ciphertext leg).load start name).answer =
      some (start.response name ciphertext, leg) := by
  cases leg <;> rfl

/-- A request is under way only while the call has asked. -/
theorem eq_asked {here : Leg} (h : here.holding (φ.load start name).question ≠ []) :
    ∃ before, φ = asked before here := by
  cases φ with
  | asked before leg =>
    rw [question_asked] at h
    by_cases hleg : leg = here
    · exact ⟨before, congrArg _ hleg⟩
    · exact absurd (if_neg hleg) h
  | answered value ciphertext leg => cases leg <;> exact absurd rfl h
  | _ => exact absurd rfl h

/-- An answer is under way only while the call is answered. -/
theorem eq_answered {here : Leg} (h : here.holding (φ.load start name).answer ≠ []) :
    ∃ value ciphertext, φ = answered value ciphertext here := by
  cases φ with
  | answered value ciphertext leg =>
    rw [answer_answered] at h
    by_cases hleg : leg = here
    · exact ⟨value, ciphertext, congrArg _ hleg⟩
    · exact absurd (if_neg hleg) h
  | asked before leg => cases leg <;> exact absurd rfl h
  | _ => exact absurd rfl h

/-- Where there is no answer, requests are all that is ever on the wire. -/
theorem Valid.load_of_none (h : φ.Valid start name) (hnone : start.answer? name = none) :
    (φ.load start name).answer = none ∧ ∃ count ≤ start.client.config.attempts,
      (φ.load start name).taken = List.replicate count (start.request name) := by
  have hsome : ∀ pair, start.answer? name ≠ some pair := by
    intro pair hpair
    rw [hnone] at hpair
    cases hpair
  -- after a phase that has an answer there is nothing to show; before one, the count is in the
  -- phase
  cases φ with
  | lookup => exact ⟨rfl, 0, Nat.zero_le _, rfl⟩
  | enlist before => exact ⟨rfl, before, Nat.le_of_lt h.1, rfl⟩
  | send before => exact ⟨rfl, before, Nat.le_of_lt h.1, rfl⟩
  | asked before leg =>
    cases leg with
    | accepted => exact ⟨rfl, before, Nat.le_of_lt h.1, rfl⟩
    | _ => exact ⟨rfl, before + 1, h.1, rfl⟩
  | silent before => exact ⟨rfl, before + 1, h.1, rfl⟩
  | withdraw before => exact ⟨rfl, before + 1, h.1, rfl⟩
  | failed => exact ⟨rfl, start.client.config.attempts, Nat.le_refl _, rfl⟩
  | _ => exact absurd h (hsome _)

end Phase

/-- Whether the time of the call has run out. -/
def Due (start s : Inquiry) : Prop :=
  ∀ k, s.client.call? start.client.made = some k → k.deadline ≤ s.client.now

/-- Of all calls only this one takes a step, and while it waits for an answer that may come it takes
none. -/
theorem At.of_act_call (h : start.At name φ s) {id : Nat} (htimely : s.Timely (.call id))
    (hact : s.act (.call id) = some s') :
    φ.action start = .call id ∧ ¬ φ.IsLast ∧ ∀ before, φ = .silent before → start.Due s := by
  obtain ⟨deadline, hsole⟩ := h.call
  have hid : id = start.client.made := by
    by_contra hne
    have hnone : s.act (.call id) = none := by
      show ((s.client.call? id).bind (s.client.step s.bus)).map _ = none
      rw [hsole.step_of_ne hne]
      rfl
    rw [hnone] at hact
    cases hact
  subst hid
  have hcall := act_call hsole
  rw [show (start.callAt name (φ.stage name) deadline).id = start.client.made from rfl, hact]
    at hcall
  -- a call that waits goes on only if its time has run out, and then nothing is under way
  have hwait : ∀ attempt, φ.stage name = .wait attempt none → φ.place? = some attempt →
      deadline ≤ s.client.now ∧ s.Delivered := by
    intro attempt hstage hplace
    rw [h.step_wait deadline hstage hplace] at hcall
    by_cases hdue : deadline ≤ s.client.now
    · exact ⟨hdue, htimely _ attempt hsole.call?_eq hstage hdue⟩
    · rw [if_neg hdue] at hcall
      cases hcall
  cases φ with
  | asked before leg =>
    -- its request would have to be handled already
    obtain ⟨-, hdelivered⟩ := hwait _ rfl rfl
    have hnone := (h.carries.delivered_iff.mp hdelivered).1
    rw [Phase.question_asked] at hnone
    cases hnone
  | answered value ciphertext leg =>
    obtain ⟨-, hdelivered⟩ := hwait _ rfl rfl
    have hnone := (h.carries.delivered_iff.mp hdelivered).2.1
    rw [Phase.answer_answered] at hnone
    cases hnone
  | kept value ciphertext =>
    obtain ⟨-, hdelivered⟩ := hwait _ rfl rfl
    have hnone := h.untold.symm.trans (h.carries.delivered_iff.mp hdelivered).2.2
    cases hnone
  | silent before =>
    refine ⟨rfl, not_false, fun _ _ k hk => ?_⟩
    obtain rfl := Option.some.inj (hsole.call?_eq.symm.trans hk)
    exact (hwait _ rfl rfl).1
  | succeeded value ciphertext =>
    rw [CredentialClient.step_done rfl] at hcall
    cases hcall
  | failed =>
    rw [CredentialClient.step_done rfl] at hcall
    cases hcall
  | _ => exact ⟨rfl, not_false, fun _ heq => nomatch heq⟩

/-- A step that can happen is the one that is due. -/
theorem At.of_act (h : start.At name φ s) (htimely : s.Timely action)
    (hstep : action.isStep = true) (hact : s.act action = some s') :
    φ.action start = action ∧ ¬ φ.IsLast ∧ ∀ before, φ = .silent before → start.Due s := by
  -- a message can only go on from where it is
  have hasked : ∀ here : Leg, here.holding (φ.load start name).question ≠ [] →
      ∃ before, φ = .asked before here := fun here => Phase.eq_asked
  have hanswered : ∀ here : Leg, here.holding (φ.load start name).answer ≠ [] →
      ∃ value ciphertext, φ = .answered value ciphertext here := fun here => Phase.eq_answered
  cases action with
  | pass millis => cases hstep
  | call id => exact h.of_act_call htimely hact
  | collectClient =>
    obtain ⟨before, rfl⟩ := hasked .accepted (by
      rw [Ne, ← h.carries.client_queues.accepted_eq_nil_iff]
      intro hnone
      simp [act, hnone] at hact)
    exact ⟨rfl, not_false, fun _ heq => nomatch heq⟩
  | collectAuthority =>
    obtain ⟨value, ciphertext, rfl⟩ := hanswered .accepted (by
      rw [Ne, ← h.carries.authority_queues.accepted_eq_nil_iff]
      intro hnone
      simp [act, hnone] at hact)
    exact ⟨rfl, not_false, fun _ heq => nomatch heq⟩
  | forwardClient =>
    obtain ⟨value, ciphertext, rfl⟩ := hanswered .routed (by
      rw [← h.carries.client_queues.hasPending_iff]
      by_contra hnone
      simp [act, hnone] at hact)
    exact ⟨rfl, not_false, fun _ heq => nomatch heq⟩
  | forwardAuthority =>
    obtain ⟨before, rfl⟩ := hasked .routed (by
      rw [← h.carries.authority_queues.hasPending_iff]
      by_contra hnone
      simp [act, hnone] at hact)
    exact ⟨rfl, not_false, fun _ heq => nomatch heq⟩
  | serve =>
    obtain ⟨before, rfl⟩ := hasked .arrived (by
      rw [Ne, ← h.carries.authority_queues.inbox_eq_nil_iff]
      intro hnone
      simp [act, hnone] at hact)
    exact ⟨rfl, not_false, fun _ heq => nomatch heq⟩
  | keep =>
    obtain ⟨value, ciphertext, rfl⟩ := hanswered .arrived (by
      rw [Ne, ← h.carries.client_queues.inbox_eq_nil_iff]
      intro hnone
      simp [act, hnone] at hact)
    exact ⟨rfl, not_false, fun _ heq => nomatch heq⟩
  | tell =>
    have huntold : s.client.untold ≠ [] := by
      intro hnone
      simp [act, hnone] at hact
    rw [h.untold] at huntold
    cases φ with
    | kept value ciphertext => exact ⟨rfl, not_false, fun _ heq => nomatch heq⟩
    | _ => exact absurd rfl huntold

/-! ## The action that is due leads on -/

/-- The action that is due can happen, and leads to the next phase. -/
theorem At.advance (hask : start.CanAsk name) (h : start.At name φ s) (hlast : ¬ φ.IsLast)
    (hdue : ∀ before, φ = .silent before → start.Due s) :
    ∃ s', s.act (φ.action start) = some s' ∧ start.At name (φ.next start name) s' := by
  have hvalid := h.valid.next hask.attempts
  have hstart := hask.started
  cases φ with
  | lookup => exact h.lookup hask
  | enlist before => exact h.enlist
  | send before => exact h.send
  | asked before leg =>
    cases leg with
    | accepted =>
      refine h.of_carries ?_ hvalid rfl rfl rfl nofun
      have hcarries := h.carries.collectClient hstart
      rwa [← List.replicate_succ'] at hcarries
    | routed => exact h.of_carries h.carries.forwardAuthority hvalid rfl rfl rfl nofun
    | arrived =>
      cases hanswer : start.answer? name with
      | none =>
        rw [Phase.next_arrived_of_none hanswer] at hvalid ⊢
        exact h.of_carries (h.carries.serve_nothing hask hanswer) hvalid rfl rfl rfl nofun
      | some pair =>
        -- only the first request can be answered
        obtain rfl : before = 0 := by
          rcases h.valid.2 with hfirst | hnone
          · exact hfirst
          · rw [hanswer] at hnone
            cases hnone
        rw [Phase.next_arrived_of_some hanswer] at hvalid ⊢
        exact h.of_carries (h.carries.serve_answer hask hanswer) hvalid rfl rfl rfl nofun
  | silent before => exact h.silent (hdue before rfl)
  | withdraw before => exact h.withdraw hask
  | answered value ciphertext leg =>
    cases leg with
    | accepted =>
      exact h.of_carries (h.carries.collectAuthority hstart) hvalid rfl rfl rfl nofun
    | routed => exact h.of_carries h.carries.forwardClient hvalid rfl rfl rfl nofun
    | arrived => exact h.arrived hask
  | kept value ciphertext => exact h.kept
  | told value ciphertext => exact h.told
  | succeeded value ciphertext => exact absurd trivial hlast
  | failed => exact absurd trivial hlast

theorem At.pass (h : start.At name φ s) (millis : Nat) :
    ∃ s', s.act (.pass millis) = some s' ∧ s'.client = s.client.pass millis ∧
      start.At name φ s' := by
  obtain ⟨s', hact, hclient, hcarries⟩ := h.carries.pass millis
  refine ⟨s', hact, hclient, h.valid, hcarries, ?_, ?_, ?_, ?_⟩ <;> rw [hclient]
  · exact h.call
  · exact h.waiters
  · exact h.cache
  · exact h.untold

/-- Waiting in vain is the only thing that has to be timely, and it is, since everything was
handled. -/
theorem At.timely (h : start.At name φ s) : s.Timely (φ.action start) := by
  -- in all phases but one the call does not wait in vain
  have hcall : ∀ attempt, φ.stage name ≠ .wait attempt none →
      ∀ k, s.client.call? start.client.made = some k → k.stage ≠ .wait attempt none := by
    intro attempt hne k hk
    obtain ⟨deadline, hsole⟩ := h.call
    obtain rfl := Option.some.inj (hsole.call?_eq.symm.trans hk)
    exact hne
  cases φ with
  | silent before =>
    intro k attempt _ _ _
    exact h.carries.delivered_iff.mpr ⟨rfl, rfl, h.untold⟩
  | asked before leg => cases leg <;> trivial
  | answered value ciphertext leg => cases leg <;> trivial
  | kept value ciphertext => trivial
  | _ =>
    intro k attempt hk hstage _
    exact absurd hstage (hcall attempt (fun heq => nomatch heq) k hk)

/-! ## Runs -/

/-- A run goes through the phases, and each of its steps brings the call closer to its end. -/
theorem At.run (hask : start.CanAsk name) (h : start.At name φ s) (hrun : s.Run actions s') :
    ∃ ψ, start.At name ψ s' ∧ steps actions + ψ.rank start ≤ φ.rank start := by
  induction hrun generalizing φ with
  | nil s => exact ⟨φ, h, Nat.le_of_eq (Nat.zero_add _)⟩
  | @cons s s₁ s' action actions timely result rest ih =>
    by_cases hstep : action.isStep = true
    · -- it is the step that is due, and costs one of those that are left
      obtain ⟨hdue, hlast, hpast⟩ := h.of_act timely hstep result
      obtain ⟨s₂, hact, hnext⟩ := h.advance hask hlast hpast
      rw [hdue, result] at hact
      cases hact
      obtain ⟨ψ, hψ, hrank⟩ := ih hnext
      have hcloser := h.valid.rank_next hlast
      have hsteps : steps (action :: actions) = steps actions + 1 :=
        List.countP_cons_of_pos hstep
      exact ⟨ψ, hψ, by omega⟩
    -- any other action lets time pass, which costs no step
    · obtain ⟨millis, rfl⟩ : ∃ millis, action = .pass millis := by
        cases action with
        | pass millis => exact ⟨millis, rfl⟩
        | _ => exact absurd rfl hstep
      obtain ⟨s₂, hact, -, hsame⟩ := h.pass millis
      rw [result] at hact
      cases hact
      obtain ⟨ψ, hψ, hrank⟩ := ih hsame
      have hsteps : steps (.pass millis :: actions) = steps actions :=
        List.countP_cons_of_neg hstep
      exact ⟨ψ, hψ, by omega⟩

theorem At.finish (hask : start.CanAsk name) (h : start.At name φ s) :
    ∃ actions s' ψ, s.Run actions s' ∧ start.At name ψ s' ∧ ψ.IsLast := by
  induction hrank : φ.rank start using Nat.strongRecOn generalizing φ s with
  | ind rank ih =>
    by_cases hlast : φ.IsLast
    · exact ⟨[], s, φ, .nil s, h, hlast⟩
    · obtain ⟨deadline, hsole⟩ := h.call
      -- after so much time the call is due
      obtain ⟨s₁, hpass, hclient, hsame⟩ := h.pass deadline
      have hdue : start.Due s₁ := by
        intro k hk
        rw [hclient] at hk ⊢
        obtain rfl := Option.some.inj (hsole.call?_eq.symm.trans hk)
        exact Nat.le_add_left deadline s.client.now
      obtain ⟨s₂, hact, hnext⟩ := hsame.advance hask hlast fun _ _ => hdue
      have hcloser := h.valid.rank_next hlast
      obtain ⟨actions, s', ψ, hrest, hψ, hend⟩ := ih _ (hrank ▸ hcloser) hnext rfl
      exact ⟨.pass deadline :: φ.action start :: actions, s', ψ,
        .cons trivial hpass (.cons hsame.timely hact hrest), hψ, hend⟩

/-! ## What is returned -/

/-- A call returns what its phase says. -/
theorem At.result?_eq (h : start.At name φ s) :
    s.result? start.client.made = (start.callAt name (φ.stage name) 0).result? := by
  obtain ⟨deadline, hsole⟩ := h.call
  have hcall : s.client.call? start.client.made =
      some (start.callAt name (φ.stage name) deadline) := hsole.call?_eq
  unfold result?
  rw [hcall]
  rfl

variable {value ciphertext : String} {result : Except Error String}

theorem At.isSome_result? (h : start.At name φ s) (hlast : φ.IsLast) :
    (s.result? start.client.made).isSome := by
  rw [h.result?_eq]
  cases φ with
  | succeeded value ciphertext => rfl
  | failed => rfl
  | _ => exact hlast.elim

/-- Where there is an answer, the call returns its value, after one request and one answer. -/
theorem At.result_of_answer (h : start.At name φ s)
    (hanswer : start.answer? name = some (value, ciphertext))
    (hresult : s.result? start.client.made = some result) :
    result = .ok value ∧ s.Delivered ∧
      start.Published s [start.request name, start.response name ciphertext] := by
  rw [h.result?_eq] at hresult
  cases φ with
  | succeeded value' text =>
    cases hanswer.symm.trans h.valid
    cases hresult
    exact ⟨rfl, h.carries.delivered_iff.mpr ⟨rfl, rfl, h.untold⟩, h.carries.published⟩
  | failed => cases hanswer.symm.trans h.valid
  | _ => cases hresult

/-- Where there is none, the call returns that nothing was found, after all its requests. -/
theorem At.result_of_none (h : start.At name φ s) (hnone : start.answer? name = none)
    (hresult : s.result? start.client.made = some result) :
    result = .error (unanswered name) ∧ s.Delivered ∧
      start.Published s
        (List.replicate start.client.config.attempts (start.request name)) := by
  rw [h.result?_eq] at hresult
  cases φ with
  | failed =>
    cases hresult
    exact ⟨rfl, h.carries.delivered_iff.mpr ⟨rfl, rfl, h.untold⟩, h.carries.published⟩
  | succeeded value ciphertext => cases hnone.symm.trans h.valid
  | _ => cases hresult

/-- Where there is none, the authority never answers. -/
theorem At.published_of_none (h : start.At name φ s) (hnone : start.answer? name = none) :
    s.authority.bus.accepted = [] ∧ ∃ count ≤ start.client.config.attempts,
      start.Published s (List.replicate count (start.request name)) := by
  obtain ⟨hanswer, count, hcount, htaken⟩ := h.valid.load_of_none hnone
  have hpublished := h.carries.published
  have hqueues := h.carries.authority_queues
  rw [htaken] at hpublished
  rw [hanswer] at hqueues
  exact ⟨hqueues.accepted_eq_nil_iff.mpr rfl, count, hcount, hpublished⟩

/-- **A credential that the client can get is delivered, and nothing else is.**  A client and its
authority have started on one broker under two plain ids, the client asks for a name, and no attempt
runs out of time before every message was delivered and handled.  Then a run has a bounded number of
steps and can be continued until the call returns.  If the agent can be named in a request, and the
first credential that is granted to it under the name fits the key of the client, the call returns
exactly its value, after one request and one answer; if not, the authority never answers, and the
call returns that nothing was found after one request for each attempt. -/
theorem credential_delivered (hstart : start.Started)
    (hsuited : start.client.keys.SuitedBy start.authority.cipher)
    (hblank : ¬ Text.isBlank name) (hquoted : ¬ Json.IsQuoted name)
    (hattempts : 1 ≤ start.client.config.attempts) (hrun : (start.ask name).Run actions s) :
    steps actions ≤ 7 * start.client.config.attempts + 4 ∧
    (∃ more s', (start.ask name).Run (actions ++ more) s' ∧
      (s'.result? start.client.made).isSome) ∧
    (∀ c, start.CanGet name c → ∀ result, s.result? start.client.made = some result →
      result = .ok c.value ∧ s.Delivered ∧
        ∃ ciphertext, start.client.keys.decrypt ciphertext = .ok c.value ∧
          start.Published s [start.request name, start.response name ciphertext]) ∧
    ((∀ c, ¬ start.CanGet name c) →
      (s.authority.bus.accepted = [] ∧ ∃ count ≤ start.client.config.attempts,
        start.Published s (List.replicate count (start.request name))) ∧
      ∀ result, s.result? start.client.made = some result →
        result = .error (unanswered name) ∧ s.Delivered ∧
          start.Published s
            (List.replicate start.client.config.attempts (start.request name))) := by
  have hask : start.CanAsk name := ⟨hstart, hsuited, hblank, hquoted, hattempts⟩
  obtain ⟨φ, hφ, hrank⟩ := (hstart.at_lookup name).run hask hrun
  refine ⟨Nat.le_trans (Nat.le_add_right _ _) hrank, ?_, ?_, ?_⟩
  · obtain ⟨more, s', ψ, hmore, hψ, hlast⟩ := hφ.finish hask
    exact ⟨more, s', hrun.append hmore, hψ.isSome_result? hlast⟩
  · intro c hget result hresult
    obtain ⟨ciphertext, hanswer⟩ := exists_answer? hsuited hget
    obtain ⟨hvalue, hdelivered, hpublished⟩ := hφ.result_of_answer hanswer hresult
    exact ⟨hvalue, hdelivered, ciphertext, (hask.answer hanswer).1, hpublished⟩
  · intro hnot
    have hnone := answer?_eq_none hsuited hnot
    exact ⟨hφ.published_of_none hnone, fun result hresult => hφ.result_of_none hnone hresult⟩

/-! ## An agent with a credential -/

def sampleKeys : KeyPair := PublicKey.keyPair ⟨Nat.pow 2 1023 + 1, Cipher.usualExponent⟩

def sampleClient (agentId : String) : CredentialClient :=
  { topics := ⟨"auth", agentId⟩, keys := sampleKeys }

def sampleAuthority : Authority :=
  { discovery :=
      { id := "auth", authorityUri := { scheme := "http", host := some "auth", path := .rooted [] }
        internalUri := none, brokerOverride := none, backoff := .withMax Backoff.defaultMax }
    topics := ⟨"auth", "auth"⟩
    cipher := .plain }

/-- A client and its authority have started, and the agent was granted a credential. -/
def granted (agentId : String) : Inquiry :=
  let records : Records :=
    { hosts := [⟨{ id := "host 1" }, some "user"⟩]
      agents := [{ id := agentId, hostId := some "host 1" }]
      credentials := [⟨"user", agentId, "api key", "secret"⟩]
      newId := serialId }
  let started := (sampleClient agentId).start { connected := true }
  let served := sampleAuthority.serve (fun _ _ => .ok ()) "token" "memory" false
  ⟨started.2.1, started.2.2, served.2, ⟨records, []⟩, {}⟩

theorem canAsk_granted {agentId : String} (hagent : Topic.IsPlain agentId)
    (hdistinct : agentId ≠ "auth") : (granted agentId).CanAsk "api key" where
  started := by
    have hplain : Topic.IsPlain (sampleClient agentId).agentId := hagent
    have hother : (sampleClient agentId).agentId ≠ (sampleClient agentId).topics.authorityId :=
      hdistinct
    have hslash : '/' ∉ "auth".toList := by decide
    have hempty : "auth" ≠ "" := by decide
    have hstart : (sampleClient agentId).start { connected := true } =
        (.ok (), (granted agentId).client, (granted agentId).bus) := rfl
    have hserve : sampleAuthority.serve (fun _ _ => .ok ()) "token" "memory" false =
        (.ok (), (granted agentId).authority) := rfl
    -- every part of the installation computes, with the id of the agent left open
    exact started_of_start hplain hother hslash hempty rfl rfl rfl rfl rfl ⟨rfl, rfl, rfl⟩
      ⟨rfl, rfl, rfl⟩ hstart hserve _ _
  suited := PublicKey.suitedBy_plain (by decide +kernel)
  not_blank := by decide
  not_quoted := Json.not_isQuoted (by decide)
  attempts := show 1 ≤ 3 by decide

theorem fits_granted (agentId : String) : (granted agentId).client.keys.Fits "secret" :=
  show sampleKeys.Fits "secret" by decide +kernel

/-- An agent asks for a credential that was granted to it, and gets it. -/
theorem credential_delivered_api_key :
    let start := granted "agent 1"
    start.Started ∧ start.client.keys.SuitedBy start.authority.cipher ∧
      ∃ actions s, (start.ask "api key").Run actions s ∧ s.result? 0 = some (.ok "secret") := by
  intro start
  obtain ⟨hstart, hsuited, hblank, hquoted, hattempts⟩ : start.CanAsk "api key" :=
    canAsk_granted (by decide) (by decide)
  obtain ⟨c, hgrant, hvalue⟩ := Records.credential?_eq_some_iff.mp
    (show start.repository.records.credential? start.client.agentId "api key" = some "secret" by
      decide)
  have hget : start.CanGet "api key" c := by
    refine ⟨.of_no_quote (by decide) (by decide) (by decide), hgrant, ?_⟩
    rw [hvalue]
    exact fits_granted "agent 1"
  -- a run without a step can be continued until the call returns
  obtain ⟨-, ⟨actions, s, hrun, hreturned⟩, -⟩ :=
    credential_delivered hstart hsuited hblank hquoted hattempts (.nil _)
  obtain ⟨result, hresult⟩ := Option.isSome_iff_exists.mp hreturned
  obtain ⟨-, -, hdelivered, -⟩ :=
    credential_delivered hstart hsuited hblank hquoted hattempts hrun
  have hsecret := (hdelivered c hget result hresult).1
  rw [hvalue] at hsecret
  rw [hsecret] at hresult
  exact ⟨hstart, hsuited, actions, s, hrun, hresult⟩

/-- An agent under a plain id that no request can name was granted a credential, and is not
answered. -/
theorem unanswered_of_not_names {agentId : String} (hagent : Topic.IsPlain agentId)
    (hdistinct : agentId ≠ "auth") (hunnamed : ¬ Topic.NamesAgent "auth" agentId) :
    ∃ actions s, ((granted agentId).ask "api key").Run actions s ∧ s.Delivered ∧
      s.result? 0 = some (.error (unanswered "api key")) ∧
      (granted agentId).Published s
        (List.replicate (granted agentId).client.config.attempts
          ((granted agentId).request "api key")) := by
  have hask := canAsk_granted hagent hdistinct
  have hnone : (granted agentId).answer? "api key" = none := if_neg hunnamed
  obtain ⟨actions, s, φ, hrun, hφ, hlast⟩ := (hask.started.at_lookup "api key").finish hask
  obtain ⟨result, hresult⟩ := Option.isSome_iff_exists.mp (hφ.isSome_result? hlast)
  obtain ⟨rfl, hdelivered, hpublished⟩ := hφ.result_of_none hnone hresult
  exact ⟨actions, s, hrun, hdelivered, hresult, hpublished⟩

/-- The id of an agent is one blank, or a text in quotes; both are plain.  It was granted a
credential that fits its key, every message is delivered and handled in time, and still its call
returns that nothing was found: a request under a blank id is refused, and one under an id in quotes
is read as one under the text without them, which is not the sender. -/
theorem granted_credential_not_delivered :
    let NotDelivered (agentId : String) : Prop :=
      let start := granted agentId
      start.Started ∧ start.client.keys.SuitedBy start.authority.cipher ∧
        (∃ c, start.repository.records.Grants agentId "api key" c ∧
          start.client.keys.Fits c.value) ∧
        ∃ actions s, (start.ask "api key").Run actions s ∧ s.Delivered ∧
          s.result? 0 = some (.error (unanswered "api key")) ∧
          start.Published s
            (List.replicate start.client.config.attempts (start.request "api key"))
    NotDelivered " " ∧ NotDelivered "\"a\"" := by
  intro NotDelivered
  have hof : ∀ agentId, Topic.IsPlain agentId → agentId ≠ "auth" →
      ¬ Topic.NamesAgent "auth" agentId →
      (granted agentId).repository.records.credential? agentId "api key" = some "secret" →
      NotDelivered agentId := by
    intro agentId hplain hdistinct hunnamed hcredential
    have hask := canAsk_granted hplain hdistinct
    obtain ⟨c, hgrant, hvalue⟩ := Records.credential?_eq_some_iff.mp hcredential
    have hfits : (granted agentId).client.keys.Fits c.value := by
      rw [hvalue]
      exact fits_granted agentId
    exact ⟨hask.started, hask.suited, ⟨c, hgrant, hfits⟩,
      unanswered_of_not_names hplain hdistinct hunnamed⟩
  exact ⟨hof _ (by decide) (by decide) (by decide +kernel) (by decide),
    hof _ (by decide) (by decide) (by decide +kernel) (by decide)⟩

end Coordination.Inquiry
