import Coordination.Proofs.Host.Stop
/-!
# Attempts to connect

An attempt may fail at any point, on top of whatever an earlier connection has left; the host
always ends up down, with an empty table and no task, and it has asked the transport to let go.  A
host that is to come up treats all failures alike and tries again, however many there are.  It ends
without having come up only if it was cancelled, and then it is down.
-/

namespace Coordination

namespace Bus

/-- After a bus was asked to leave, there is a connection only if the transport does not let go. -/
theorem connected_disconnect {b : Bus} (hconnected : b.disconnect.2.connected = true) :
    .disconnect ∈ b.disconnect.2.down := by
  unfold disconnect call at hconnected ⊢
  by_cases hdown : .disconnect ∈ b.down
  · rw [if_pos hdown]
    exact hdown
  · rw [if_neg hdown] at hconnected
    cases hconnected

/-- A task whose subscription the table does not name ends as soon as it runs. -/
theorem forwarding_settle {b : Bus} (hempty : b.filters = []) :
    ∀ s ∈ b.settle.subscriptions, s.forwarding = false := by
  intro s hs
  obtain ⟨t, ht, rfl⟩ := List.mem_map.mp hs
  have hnone := List.filter_eq_nil_iff.mp (List.map_eq_nil_iff.mp hempty) t ht
  have hforgotten : (!t.registered) = true := by simpa using hnone
  unfold Subscription.settle
  rw [if_pos hforgotten]
  rfl

end Bus

namespace Host

/-! ## One attempt -/

/-- What an attempt to connect leaves when it fails. -/
structure Cleared (h : Host) : Prop where
  state : h.state.value = .disconnected
  dispatching : h.dispatching = false
  filters : h.bus.filters = []
  /-- No task of a subscription goes on. -/
  forwarding : ∀ s ∈ h.bus.settle.subscriptions, s.forwarding = false
  /-- The last that was done to the bus is that it was asked to leave. -/
  left : ∃ b : Bus, h.bus = b.disconnect.2
  /-- So there is no connection, unless the transport does not let go. -/
  connected : h.bus.connected = true → .disconnect ∈ h.bus.down

/-- Wherever an attempt broke off and whatever was there before, leaving the broker clears it. -/
theorem cleared_teardown (h : Host) (state : Watched HostState)
    (hdown : state.value = .disconnected) : Cleared { h.teardown with state } where
  state := hdown
  dispatching := h.dispatching_teardown
  filters := h.filters_teardown
  forwarding := Bus.forwarding_settle h.filters_teardown
  left := ⟨_, rfl⟩
  connected := Bus.connected_disconnect

section connect
variable {h h' : Host} {admission : Admission} {w w' : Web}

theorem state_of_isConnected (hup : h.isConnected = true) : h.state.value = .connected := by
  unfold isConnected at hup
  rw [Bool.and_eq_true, decide_eq_true_eq] at hup
  exact hup.1

theorem state_of_connect_ok (hconnect : h.connect admission w = (.ok (), h', w')) :
    h'.state.value = .connected := by
  unfold connect at hconnect
  split at hconnect
  · next hup =>
    cases hconnect
    exact state_of_isConnected hup
  · split at hconnect
    · cases hconnect
      rfl
    · cases hconnect

theorem cleared_of_connect_error {e : Error}
    (hconnect : h.connect admission w = (.error e, h', w')) : h'.Cleared := by
  unfold connect at hconnect
  split at hconnect
  · cases hconnect
  · split at hconnect
    · cases hconnect
    · cases hconnect
      exact cleared_teardown _ _ rfl

end connect

/-! ## Cancelled attempts -/

end Host

/-- A search that ends without the endpoints was cancelled. -/
theorem Discovery.cancelled_of_locate_error {d : Discovery} {w : Web} {e : Error}
    (herror : (d.locate w).1 = .error e) : (d.locate w).2.2.cancelled = true := by
  simp only [Discovery.locate] at herror ⊢
  rw [herror]

theorem Token.ofReply_ne_cancelled (r : WebReply) : Token.ofReply r ≠ .error .cancelled := by
  unfold Token.ofReply
  grind

theorem Token.request_ne_cancelled (w : Web) (endpoint id secret scope : String) :
    (Token.request w endpoint id secret scope).1 ≠ .error .cancelled := by
  unfold Token.request
  split
  · exact Except.error.inj.mt nofun
  · exact Token.ofReply_ne_cancelled _

namespace Bus

theorem call_ne_cancelled (b : Bus) (c : TransportCall) : b.call c ≠ .error .cancelled := by
  unfold call Error.ofTransport
  grind

theorem connect_ne_cancelled (b : Bus) (admission : Admission) (token endpoint : String) :
    (b.connect admission token endpoint).1 ≠ .error .cancelled := by
  have hcall := b.call_ne_cancelled .connect
  unfold connect Error.ofTransport
  grind

theorem subscribe_ne_cancelled (b : Bus) (filter handler : String) :
    (b.subscribe filter handler).1 ≠ .error .cancelled := by
  have hcall := b.call_ne_cancelled .subscribe
  unfold subscribe
  grind

theorem publishEvent_ne_cancelled (b : Bus) (topic : String) (e : Event) :
    (b.publishEvent topic e).1 ≠ .error .cancelled := by
  let stamped : Bus := { b with clock := b.clock.advance b.now }
  have hcall := stamped.call_ne_cancelled .publish
  unfold publishEvent publishAsync
  grind

end Bus

namespace Host

section cancelled
variable {h h' : Host} {admission : Admission} {w w' : Web}

theorem announce_ne_cancelled (h : Host) (givenUp : Bool) :
    (h.announce givenUp).1 ≠ .error .cancelled := by
  have hsubscribe := h.bus.subscribe_ne_cancelled h.inbox h.inbox
  unfold announce
  split
  · next heq => simpa [heq] using hsubscribe
  · exact Bus.publishEvent_ne_cancelled _ _ _

theorem enter_ne_cancelled (h : Host) (admission : Admission) (token : String) (givenUp : Bool) :
    (h.enter admission token givenUp).1 ≠ .error .cancelled := by
  unfold enter
  split
  · exact Except.error.inj.mt nofun
  · next endpoint _ =>
    have hconnect := h.bus.connect_ne_cancelled admission token endpoint
    split
    · next heq => simpa [heq] using hconnect
    · exact announce_ne_cancelled _ _

/-- Only the search for the endpoints can be cancelled; no other step of an attempt says so. -/
theorem cancelled_of_attempt (hattempt : h.attempt admission w = (.error .cancelled, h', w')) :
    w'.cancelled = true := by
  unfold attempt at hattempt
  rcases hlocate : h.discovery.locate w with ⟨found, discovery, w₁⟩
  rw [hlocate] at hattempt
  cases found with
  | error e =>
    have hsearch := h.discovery.cancelled_of_locate_error (congrArg Prod.fst hlocate)
    cases hattempt
    rwa [hlocate] at hsearch
  | ok endpoints =>
    -- no error of a later step says that it was cancelled
    have htoken := Token.request_ne_cancelled w₁ endpoints.tokenEndpoint h.id h.secret
      Token.connectScope
    dsimp only at hattempt
    split at hattempt
    · next heq =>
      cases hattempt
      rw [heq] at htoken
      exact absurd rfl htoken
    · exact absurd (congrArg Prod.fst hattempt) (enter_ne_cancelled _ _ _ _)

/-- An attempt that says that it was cancelled was. -/
theorem cancelled_of_connect (hconnect : h.connect admission w = (.error .cancelled, h', w')) :
    w'.cancelled = true := by
  unfold connect at hconnect
  split at hconnect
  · cases hconnect
  · split at hconnect
    · cases hconnect
    · next hattempt =>
      cases hconnect
      exact cancelled_of_attempt hattempt

end cancelled

/-! ## Attempts one after another -/

/-- Whether an operation is something else than an attempt to connect. -/
def Operation.Aside : Operation → Prop
  | .connect _ _ => False
  | _ => True

theorem Steady.disconnected {h h' : Host} (hsteady : h.Steady h')
    (hdown : h.state.value = .disconnected) : h'.state.value = .disconnected := by
  rw [hsteady.state]
  exact hdown

/-- A host that is down does not come up by itself. -/
theorem state_perform {h : Host} {op : Operation} (hdown : h.state.value = .disconnected)
    (haside : op.Aside) : (h.perform op).state.value = .disconnected := by
  cases op with
  | handle m => exact (h.steady_handle m).disconnected hdown
  | welcome plugins agents => exact (h.steady_welcome plugins agents).disconnected hdown
  | agentConnect agent => exact (h.runs_agentConnect agent).steady.disconnected hdown
  | agentDisconnect agentId => exact (h.ends_agentDisconnect agentId).steady.disconnected hdown
  | stop =>
    show h.stop.state.value = _
    rw [stop_of_disconnected hdown]
    exact hdown
  | connect admission w => exact haside.elim
  | rewire bus => exact hdown

/-- An attempt, with what the brokers and the web have in store for it, and what happens to the host
while it waits for the next one. -/
structure Round where
  admission : Admission
  web : Web
  meanwhile : List Operation := []
  /-- Whether the host is cancelled while it waits. -/
  cancelled : Bool := false

def pass (h : Host) (round : Round) : Host :=
  round.meanwhile.foldl Host.perform (h.connect round.admission round.web).2.1

/-- The host is cancelled during an attempt or while it waits for the next one. -/
def CancelledIn (h : Host) (round : Round) : Prop :=
  (h.connect round.admission round.web).2.2.cancelled = true ∨ round.cancelled = true

/-- While the host waits, nobody else connects it. -/
def Unaided (rounds : List Round) : Prop :=
  ∀ round ∈ rounds, ∀ op ∈ round.meanwhile, op.Aside

theorem unaided_cons {round : Round} {rounds : List Round} : Unaided (round :: rounds) ↔
    (∀ op ∈ round.meanwhile, op.Aside) ∧ Unaided rounds :=
  List.forall_mem_cons

/-- How a host comes up or gives up, by one attempt after another.  Anything may happen to it while
it waits for the next one. -/
inductive Starts : Host → List Round → Except Error Unit → Host → Prop where
  /-- The host is up. -/
  | up {h : Host} : h.isConnected = true → Starts h [] (.ok ()) h
  /-- The attempt succeeds. -/
  | entered {h h' : Host} {round : Round} {w' : Web} : h.isConnected = false →
    h.connect round.admission round.web = (.ok (), h', w') → Starts h [round] (.ok ()) h'
  /-- The attempt is cancelled. -/
  | cancelled {h h' : Host} {round : Round} {w' : Web} : h.isConnected = false →
    h.connect round.admission round.web = (.error .cancelled, h', w') →
    Starts h [round] (.error .cancelled) h'
  /-- The attempt fails, and the host finds itself cancelled as it waits for the next one. -/
  | givenUp {h : Host} {round : Round} {e : Error} : h.isConnected = false →
    (h.connect round.admission round.web).1 = .error e → e ≠ .cancelled → h.CancelledIn round →
    Starts h [round] (.error .cancelled) (h.pass round)
  /-- The attempt fails, and the host tries again. -/
  | again {h h' : Host} {round : Round} {rounds : List Round} {e : Error}
    {result : Except Error Unit} : h.isConnected = false →
    (h.connect round.admission round.web).1 = .error e → e ≠ .cancelled →
    Starts (h.pass round) rounds result h' → Starts h (round :: rounds) result h'

section starts
variable {h h' : Host} {round : Round} {rounds : List Round} {result : Except Error Unit}

/-- A host whose attempt has failed is down until the next one. -/
theorem state_pass {e : Error} (hfailed : (h.connect round.admission round.web).1 = .error e)
    (haside : ∀ op ∈ round.meanwhile, op.Aside) :
    (h.pass round).state.value = .disconnected := by
  rcases hconnect : h.connect round.admission round.web with ⟨result, h₁, w₁⟩
  rw [hconnect] at hfailed
  obtain rfl : result = .error e := hfailed
  unfold pass
  rw [hconnect]
  refine List.foldlRecOn (motive := fun h : Host => h.state.value = .disconnected)
    round.meanwhile _ (cleared_of_connect_error hconnect).state ?_
  exact fun h₂ hdown op hop => state_perform hdown (haside op hop)

/-- A host comes up by an attempt that succeeds, unless it finds itself up. -/
theorem Starts.of_ok (hstarts : h.Starts rounds result h') (hok : result = .ok ()) :
    h'.state.value = .connected ∧
      (h' = rounds.foldl pass h ∧ h'.isConnected = true ∧ (Unaided rounds → rounds = []) ∨
        ∃ before last w', rounds = before ++ [last] ∧
          (before.foldl pass h).connect last.admission last.web = (.ok (), h', w')) := by
  induction hstarts with
  | up hup => exact ⟨state_of_isConnected hup, .inl ⟨rfl, hup, fun _ => rfl⟩⟩
  | @entered h h' round w' _ hconnect =>
    exact ⟨state_of_connect_ok hconnect, .inr ⟨[], round, w', rfl, hconnect⟩⟩
  | cancelled => cases hok
  | givenUp => cases hok
  | @again h h' round rounds e result _ hfailed _ _ ih =>
    obtain ⟨hstate, ⟨hpass, hup, hnone⟩ | ⟨before, last, w', rfl, hconnect⟩⟩ := ih hok
    · refine ⟨hstate, .inl ⟨hpass, hup, fun hunaided => ?_⟩⟩
      -- nothing but an attempt brings it up, and this one has failed
      obtain ⟨haside, hrest⟩ := unaided_cons.mp hunaided
      obtain rfl := hnone hrest
      have hdown : h'.state.value = .disconnected := hpass ▸ state_pass hfailed haside
      rw [hstate] at hdown
      cases hdown
    · exact ⟨hstate, .inr ⟨round :: before, last, w', rfl, hconnect⟩⟩

/-- A host that does not come up was cancelled in its last attempt or in the wait after it, and is
down unless somebody else has connected it. -/
theorem Starts.of_error {e : Error} (hstarts : h.Starts rounds result h')
    (herror : result = .error e) :
    e = .cancelled ∧ (∃ before last, rounds = before ++ [last] ∧
      (before.foldl pass h).CancelledIn last) ∧
      (Unaided rounds → h'.state.value = .disconnected) := by
  -- on the attempts: only a cancelled one ends without the host being up
  induction hstarts with
  | up => cases herror
  | entered => cases herror
  | @cancelled h h' round w' _ hconnect =>
    cases herror
    have hcancelled : h.CancelledIn round := by
      refine .inl ?_
      rw [hconnect]
      exact cancelled_of_connect hconnect
    exact ⟨rfl, ⟨[], round, rfl, hcancelled⟩, fun _ => (cleared_of_connect_error hconnect).state⟩
  | @givenUp h round e _ hfailed _ hcancelled =>
    cases herror
    exact ⟨rfl, ⟨[], round, rfl, hcancelled⟩,
      fun hunaided => state_pass hfailed (unaided_cons.mp hunaided).1⟩
  | @again h h' round rounds e' result _ _ _ _ ih =>
    obtain ⟨rfl, ⟨before, last, rfl, hcancelled⟩, hdown⟩ := ih herror
    exact ⟨rfl, ⟨round :: before, last, rfl, hcancelled⟩,
      fun hunaided => hdown (unaided_cons.mp hunaided).2⟩

end starts

/-- Attempts that all fail, and in none of which the host is cancelled. -/
inductive Failing : Host → List Round → Prop where
  | nil (h : Host) : Failing h []
  | cons {h : Host} {round : Round} {rounds : List Round} {e : Error} : h.isConnected = false →
    (h.connect round.admission round.web).1 = .error e → e ≠ .cancelled → round.cancelled = false →
    Failing (h.pass round) rounds → Failing h (round :: rounds)

/-! ## Attempts with nothing in between -/

/-- A host comes up or gives up, and nothing happens to it between its attempts. -/
def StartsAlone (h : Host) (result : Except Error Unit) (h' : Host) : Prop :=
  ∃ rounds, h.Starts rounds result h' ∧ ∀ round ∈ rounds, round.meanwhile = []

/-- A number of attempts fail, and nothing happens to the host between them. -/
def FailsAlone (h : Host) (tries : Nat) (h' : Host) : Prop :=
  ∃ rounds : List Round, rounds.length = tries ∧ h.Failing rounds ∧
    (∀ round ∈ rounds, round.meanwhile = []) ∧ h' = rounds.foldl pass h

section alone
variable {cancelled : Host → Web → Bool} {admission : Admission} {tries : Nat}
  {h h' h'' : Host} {w w' : Web} {result : Except Error Unit}

theorem startsAlone_once (round : Round) (hquiet : round.meanwhile = [])
    (hstarts : h.Starts [round] result h') : h.StartsAlone result h' := by
  refine ⟨[round], hstarts, fun _ hmem => ?_⟩
  rw [List.mem_singleton.mp hmem]
  exact hquiet

/-- What starting can do with one attempt: the host is up, the attempt succeeds, it is cancelled, it
fails and the host gives up, or it fails and the host goes on with the attempts that are left. -/
theorem start_cases (cancelled : Host → Web → Bool) (admission : Admission) (tries : Nat)
    (h : Host) (w : Web) :
    (h.isConnected = true ∧
      start cancelled admission (tries + 1) h w = (some (.ok ()), h, w)) ∨
    (h.isConnected = false ∧ ∃ result h' w', h.connect admission w = (result, h', w') ∧
      ((result = .ok () ∨ result = .error .cancelled) ∧
          start cancelled admission (tries + 1) h w = (some result, h', w') ∨
        (∃ e, result = .error e ∧ e ≠ .cancelled) ∧
          start cancelled admission (tries + 1) h w =
            if cancelled h' w' then (some (.error .cancelled), h', w')
            else start cancelled admission tries h' w')) := by
  by_cases hup : h.isConnected = true
  · exact .inl ⟨hup, by rw [start, if_pos hup]⟩
  refine .inr ⟨Bool.eq_false_iff.mpr hup, ?_⟩
  rcases hconnect : h.connect admission w with ⟨result, h', w'⟩
  refine ⟨result, h', w', rfl, ?_⟩
  rw [start, if_neg hup, hconnect]
  match result with
  | .ok () => exact .inl ⟨.inl rfl, rfl⟩
  | .error e =>
    by_cases hcancelled : e = .cancelled
    · subst hcancelled
      exact .inl ⟨.inr rfl, rfl⟩
    · exact .inr ⟨⟨e, rfl, hcancelled⟩, by split <;> simp_all⟩

/-- A start that comes to an end is a sequence of attempts with nothing in between.  If it does not
come up, then the host was cancelled, and it is down. -/
theorem startsAlone_of_start
    (hstart : start cancelled admission tries h w = (some result, h', w')) :
    h.StartsAlone result h' ∧
      ∀ e, result = .error e →
        e = .cancelled ∧ (w'.cancelled = true ∨ cancelled h' w' = true) ∧
          h'.state.value = .disconnected := by
  induction tries generalizing h w with
  | zero => cases hstart
  | succ tries ih =>
    rcases start_cases cancelled admission tries h w with
      ⟨hup, heq⟩ | ⟨hdown, result₁, h₁, w₁, hconnect, ⟨hends, heq⟩ | ⟨⟨e, rfl, hother⟩, heq⟩⟩
    · cases heq.symm.trans hstart
      exact ⟨⟨[], .up hup, fun _ hmem => absurd hmem List.not_mem_nil⟩, nofun⟩
    · cases heq.symm.trans hstart
      rcases hends with rfl | rfl
      · exact ⟨startsAlone_once ⟨admission, w, [], false⟩ rfl (.entered hdown hconnect),
          nofun⟩
      · refine ⟨startsAlone_once ⟨admission, w, [], false⟩ rfl
          (.cancelled hdown hconnect), ?_⟩
        rintro _ ⟨⟩
        exact ⟨rfl, .inl (cancelled_of_connect hconnect), (cleared_of_connect_error hconnect).state⟩
    -- the attempt failed, and whether the host was cancelled afterwards decides
    · let round : Round := ⟨admission, w, [], cancelled h₁ w₁⟩
      have hfailed : (h.connect round.admission round.web).1 = .error e :=
        congrArg Prod.fst hconnect
      have hpass : h.pass round = h₁ := congrArg (fun outcome => outcome.2.1) hconnect
      rw [heq] at hstart
      by_cases hgivesUp : cancelled h₁ w₁ = true
      · rw [if_pos hgivesUp] at hstart
        cases hstart
        refine ⟨hpass ▸ startsAlone_once round rfl
          (.givenUp hdown hfailed hother (.inr hgivesUp)), ?_⟩
        rintro _ ⟨⟩
        exact ⟨rfl, .inr hgivesUp, (cleared_of_connect_error hconnect).state⟩
      · rw [if_neg hgivesUp] at hstart
        obtain ⟨⟨rounds, hstarts, hquiet⟩, herror⟩ := ih hstart
        refine ⟨⟨round :: rounds, .again hdown hfailed hother ?_, ?_⟩, herror⟩
        · rwa [hpass]
        · exact List.forall_mem_cons.mpr ⟨rfl, hquiet⟩

/-- A start that goes on has made all its attempts; all have failed, and nobody has cancelled it. -/
theorem failsAlone_of_start
    (hstart : start cancelled admission tries h w = (none, h', w')) : h.FailsAlone tries h' := by
  induction tries generalizing h w with
  | zero =>
    cases hstart
    exact ⟨[], rfl, .nil _, fun _ hmem => absurd hmem List.not_mem_nil, rfl⟩
  | succ tries ih =>
    rcases start_cases cancelled admission tries h w with
      ⟨_, heq⟩ | ⟨hdown, result₁, h₁, w₁, hconnect, ⟨_, heq⟩ | ⟨⟨e, rfl, hother⟩, heq⟩⟩
    · cases heq.symm.trans hstart
    · cases heq.symm.trans hstart
    -- of the ways to go on, only a failure uses up an attempt and returns nothing
    · let round : Round := { admission, web := w }
      have hfailed : (h.connect round.admission round.web).1 = .error e :=
        congrArg Prod.fst hconnect
      have hpass : h.pass round = h₁ := congrArg (fun outcome => outcome.2.1) hconnect
      rw [heq] at hstart
      split at hstart
      · cases hstart
      · obtain ⟨rounds, rfl, hfailing, hquiet, rfl⟩ := ih hstart
        refine ⟨round :: rounds, rfl, .cons hdown hfailed hother rfl ?_,
          List.forall_mem_cons.mpr ⟨rfl, hquiet⟩, ?_⟩
        · rwa [hpass]
        · rw [List.foldl_cons, hpass]

end alone

/-- **Attempts end clean.**  Whatever a host has been through and whatever becomes of an attempt to
connect, the host is up if it succeeds; if it fails, the host is down and nothing is left running.
However many attempts fail, in whatever way, and whatever happens while the host waits: a host that
is to come up does so by an attempt that succeeds, or it finds itself up, as it does only from the
beginning or after somebody else has connected it; or it was cancelled in its last attempt or in the
wait after it, and then it is down unless somebody else has connected it.  Starting is such a
sequence of attempts, with nothing in between: it ends with the host up, or cancelled and down, and
as long as it has not ended all attempts have failed and nobody has cancelled it. -/
theorem attempts_end_clean (h : Host) (admission : Admission) (w : Web) :
    (match h.connect admission w with
      | (.ok (), h', _) => h'.state.value = .connected
      | (.error _, h', _) => h'.Cleared) ∧
    (∀ rounds h', h.Starts rounds (.ok ()) h' → h'.state.value = .connected ∧
      (h' = rounds.foldl pass h ∧ h'.isConnected = true ∧ (Unaided rounds → rounds = []) ∨
        ∃ before last w', rounds = before ++ [last] ∧
          (before.foldl pass h).connect last.admission last.web = (.ok (), h', w'))) ∧
    (∀ rounds e h', h.Starts rounds (.error e) h' →
      e = .cancelled ∧ (∃ before last, rounds = before ++ [last] ∧
        (before.foldl pass h).CancelledIn last) ∧
        (Unaided rounds → h'.state.value = .disconnected)) ∧
    ∀ cancelled tries,
      match start cancelled admission tries h w with
      | (some result, h', w') =>
        h.StartsAlone result h' ∧
          ∀ e, result = .error e →
            e = .cancelled ∧ (w'.cancelled = true ∨ cancelled h' w' = true) ∧
              h'.state.value = .disconnected
      | (none, h', _) => h.FailsAlone tries h' := by
  refine ⟨?_, fun rounds h' hstarts => hstarts.of_ok rfl,
    fun rounds e h' hstarts => hstarts.of_error rfl, fun cancelled tries => ?_⟩
  · rcases hconnect : h.connect admission w with ⟨_ | _, h', w'⟩
    · exact cleared_of_connect_error hconnect
    · exact state_of_connect_ok hconnect
  · rcases hstart : start cancelled admission tries h w with ⟨_ | result, h', w'⟩
    · exact failsAlone_of_start hstart
    · exact startsAlone_of_start hstart

/-- A host with a wrong secret asks for a token again and again, until it is cancelled. -/
example :
    let config : HostConfig :=
      { discovery := { authorityUri := "http://auth" }, hostId := "h1", hostSecret := "wrong" }
    let refused : WebReply := { status := 401, body := "" }
    let w : Web := { admittingWeb 1 with posts := [refused, refused, refused], patience := some 4 }
    (match create config .recording with
      | .ok h =>
        let (early, h', _) := start (fun _ => Web.givesUp) (fun _ _ => .ok ()) 2 h w
        let (late, h'', w'') := start (fun _ => Web.givesUp) (fun _ _ => .ok ()) 3 h w
        early.isNone && h'.state.value = .disconnected && (late matches some (.error .cancelled)) &&
          h''.state.value = .disconnected && w''.sent.length = 4
      | .error _ => false) = true := by
  decide +kernel

end Host

end Coordination
