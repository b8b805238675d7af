import Coordination.Proofs.Authority.Dispatch
import Coordination.Proofs.Bus.Line
/-!
# How an authority comes up

While an authority is up the table of its bus names one subscription, that of the inbox, and while
it is not the table is empty.  A connection that is lost without notice changes neither the table
nor the state: such an authority is lost until it leaves.  A call to come up either brings it up,
with one subscription of the inbox, or fails and leaves it down; but on a lost authority the call
fails after it connected again, for the inbox is in the table, and the authority counts as up.
-/

namespace Coordination

/-! ## Searches -/

namespace Discovery

variable {d : Discovery} {e : Error}

/-- A search ends without a result only when it is given up. -/
theorem attempt_error {uri : String} {ending : GivenUp} {delay : Duration}
    {replies : List WebReply} (h : (d.attempt uri ending delay replies).result = .error e) :
    e = .cancelled := by
  induction replies generalizing delay with
  | nil =>
    unfold attempt at h
    cases h
    rfl
  | cons r rest ih =>
    unfold attempt at h
    split at h
    · cases h
    · exact ih h

theorem search_error {ending : GivenUp} {replies : List WebReply}
    (h : (d.search ending replies).result = .error e) : e = .cancelled := by
  unfold search at h
  split at h
  · cases h
  · split at h
    · cases h
      rfl
    · exact attempt_error h

theorem locate_error {w : Web} (h : (d.locate w).1 = .error e) : e = .cancelled := by
  unfold locate at h
  dsimp only at h
  split at h
  · exact search_error h
  · split at h
    · exact search_error h
    · exact search_error h

end Discovery

namespace Authority

variable {a a' : Authority} {e : Error}

/-- A search is announced by an authority that knows nothing yet. -/
theorem value_beginSearch (a : Authority) : a.beginSearch.state.value =
    if a.state.value = .uninitialized then .initializing else a.state.value := by
  by_cases h : a.state.value = .uninitialized <;>
    simp [beginSearch, Watched.modify, Watched.replace, h]

theorem value_endSearch_true (a : Authority) : (a.endSearch true).state.value =
    if a.state.value = .connected then .connected else .initialized := by
  by_cases h : a.state.value = .connected <;>
    simp [endSearch, Watched.modify, Watched.replace, h]

theorem value_endSearch_false (a : Authority) : (a.endSearch false).state.value =
    if a.state.value = .initializing then .uninitialized else a.state.value := by
  by_cases h : a.state.value = .initializing <;>
    simp [endSearch, Watched.modify, Watched.replace, h]

/-- A search concerns neither the bus nor whether the authority counts as up, and fails only when it
is given up. -/
theorem locate_frame (a : Authority) (w : Web) :
    (a.locate w).2.1.topics = a.topics ∧ (a.locate w).2.1.bus = a.bus ∧
      ((a.locate w).2.1.state.value = .connected ↔ a.state.value = .connected) ∧
      ∀ e, (a.locate w).1 = .error e → e = .cancelled := by
  -- neither end of a search replaces the state of an authority that counts as up
  have hbegin : a.beginSearch.state.value = .connected ↔ a.state.value = .connected := by
    rw [value_beginSearch]
    by_cases hnew : a.state.value = .uninitialized <;> simp [hnew]
  have hend : ∀ (a : Authority) found,
      (a.endSearch found).state.value = .connected ↔ a.state.value = .connected := by
    intro a found
    cases found with
    | true =>
      rw [value_endSearch_true]
      by_cases hup : a.state.value = .connected <;> simp [hup]
    | false =>
      rw [value_endSearch_false]
      by_cases hsought : a.state.value = .initializing <;> simp [hsought]
  unfold locate
  split
  · exact ⟨rfl, rfl, .rfl, fun e he => nomatch he⟩
  · rcases hlocate : a.beginSearch.discovery.locate w with ⟨result, discovery, w'⟩
    dsimp only
    rw [hlocate]
    cases result with
    | ok endpoints => exact ⟨rfl, rfl, (hend _ _).trans hbegin, fun e he => nomatch he⟩
    | error e =>
      refine ⟨rfl, rfl, (hend _ _).trans hbegin, fun e' he => ?_⟩
      cases he
      exact Discovery.locate_error (congrArg Prod.fst hlocate)

/-! ## Calls to come up -/

theorem isConnected_iff :
    a.isConnected = true ↔ a.state.value = .connected ∧ a.bus.connected = true := by
  unfold isConnected
  rw [Bool.and_eq_true, decide_eq_true_iff]

/-- The subscription of an inbox, which is served unless the authority was asked to give up. -/
def inboxSubscription (a : Authority) (givenUp : Bool) : Subscription :=
  { filter := a.inbox, handler := a.inbox, listening := !givenUp }

/-- How a call to come up ends for an authority that is down. -/
inductive Attempts (a : Authority) (givenUp : Bool) : Except Error Unit → Authority → Prop where
  /-- It is up from now on; the inbox was not in the table before. -/
  | comesUp {a' : Authority} :
    a.inbox ∉ a.bus.filters → a'.topics = a.topics → a'.state.value = .connected →
      a'.bus.connected = true →
      (a.bus.named = [] → a'.bus.named = [a.inboxSubscription givenUp]) →
      Attempts a givenUp (.ok ()) a'
  /-- Nothing changes but the connection.  Where the inbox is in the table of a bus without
  connection, the call fails for this reason exactly if there is a connection afterwards. -/
  | fails {e : Error} {a' : Authority} :
    a'.topics = a.topics → (a'.state.value = .connected ↔ a.state.value = .connected) →
      a'.bus.subscriptions = a.bus.subscriptions →
      ((a.inbox ∈ a.bus.filters → a.bus.connected = false) →
        (e = .duplicateSubscription a.inbox ↔
          a.inbox ∈ a.bus.filters ∧ a'.bus.connected = true)) →
      Attempts a givenUp (.error e) a'

/-- What was searched for does not matter. -/
theorem Attempts.congr {a₀ : Authority} {givenUp : Bool} {result : Except Error Unit}
    (h : a₀.Attempts givenUp result a') (htopics : a₀.topics = a.topics) (hbus : a₀.bus = a.bus)
    (hup : a₀.state.value = .connected ↔ a.state.value = .connected) :
    a.Attempts givenUp result a' := by
  have hinbox : a₀.inbox = a.inbox := congrArg Generator.subscribeAsAuthority htopics
  cases h with
  | comesUp hfree htopics' hup' hconnected hnamed =>
    unfold inboxSubscription at hnamed
    rw [hinbox, hbus] at hfree hnamed
    exact .comesUp hfree (htopics'.trans htopics) hup' hconnected hnamed
  | fails htopics' hup' hsubscriptions hduplicate =>
    rw [hinbox, hbus] at hduplicate
    rw [hbus] at hsubscriptions
    exact .fails (htopics'.trans htopics) (hup'.trans hup) hsubscriptions hduplicate

/-- An error that has nothing to do with the table, with no connection that the table could stand
in the way of. -/
theorem Attempts.fails_otherwise {givenUp : Bool} (htopics : a'.topics = a.topics)
    (hup : a'.state.value = .connected ↔ a.state.value = .connected)
    (hsubscriptions : a'.bus.subscriptions = a.bus.subscriptions)
    (he : e ≠ .duplicateSubscription a.inbox)
    (hconnected : a'.bus.connected = true → a.bus.connected = true) :
    a.Attempts givenUp (.error e) a' := by
  refine .fails htopics hup hsubscriptions fun hdown => iff_of_false he ?_
  rintro ⟨hinbox, hconnected'⟩
  rw [hdown hinbox] at hconnected
  cases hconnected hconnected'

/-- Serving the inbox is such an attempt. -/
theorem attempts_serve (a : Authority) (admission : Admission) (token endpoint : String)
    (givenUp : Bool) :
    a.Attempts givenUp (a.serve admission token endpoint givenUp).1
      (a.serve admission token endpoint givenUp).2 := by
  unfold serve
  obtain ⟨bus, hsubscriptions, ⟨hconnected, detail, hconnect⟩ | ⟨hconnected, hconnect⟩⟩ :=
    a.bus.connect_cases admission token endpoint
  · rw [hconnect]
    refine .fails_otherwise rfl .rfl hsubscriptions (fun he => nomatch he) fun hconnected' => ?_
    rw [hconnected] at hconnected'
    cases hconnected'
  · have hfilters : bus.filters = a.bus.filters := by
      rw [Bus.filters, hsubscriptions, Bus.filters]
    rw [hconnect]
    dsimp only
    -- there is a connection by now, whatever becomes of the subscription
    obtain ⟨e, hsubscribe⟩ | ⟨-, hfree, hsubscribe⟩ := bus.subscribe_cases a.inbox a.inbox
    · rw [hsubscribe]
      refine .fails rfl .rfl hsubscriptions fun _ => ?_
      rw [Bus.subscribe_error_iff hconnected (congrArg Prod.fst hsubscribe), hfilters]
      exact (and_iff_left hconnected).symm
    · rw [hfilters] at hfree
      rw [hsubscribe]
      refine .comesUp hfree rfl rfl ?_ fun hnone => ?_
      · cases givenUp <;> exact hconnected
      · have hbus : bus.named = [] := by rw [Bus.named, hsubscriptions, ← Bus.named, hnone]
        cases givenUp with
        | false =>
          show (bus.subscribed a.inbox a.inbox).named = _
          rw [Bus.named_subscribed, hbus]
          rfl
        | true =>
          show ((bus.subscribed a.inbox a.inbox).closeHandler a.inbox).named = _
          rw [Bus.named_closeHandler, Bus.named_subscribed, hbus]
          simp [inboxSubscription, Subscription.deafen]

/-- **A call to come up** changes nothing while the authority is up, and otherwise is an attempt,
given up when the caller was. -/
theorem connect_cases (a : Authority) (admission : Admission) (token : String) (w : Web) :
    (a.isConnected = true ∧ a.connect admission token w = (.ok (), a, w)) ∨
    (a.isConnected = false ∧
      a.Attempts (a.connect admission token w).2.2.cancelled (a.connect admission token w).1
        (a.connect admission token w).2.1) := by
  unfold connect
  split
  · next hup => exact .inl ⟨hup, rfl⟩
  · next hdown =>
    refine .inr ⟨by rwa [Bool.not_eq_true] at hdown, ?_⟩
    split
    · exact a.attempts_serve admission token _ w.cancelled
    -- without a known broker there is a search first, which changes nothing but what is known
    · obtain ⟨htopics, hbus, hup, herror⟩ := a.locate_frame w
      rcases hlocate : a.locate w with ⟨result, a₁, w₁⟩
      rw [hlocate] at htopics hbus hup herror
      have hstill : a₁.bus.connected = true → a.bus.connected = true := by
        rw [hbus]
        exact id
      cases result with
      | error e =>
        obtain rfl := herror e rfl
        exact .fails_otherwise htopics hup (congrArg Bus.subscriptions hbus)
          (fun he => nomatch he) hstill
      | ok _ =>
        dsimp only
        split
        · exact .fails_otherwise htopics hup (congrArg Bus.subscriptions hbus)
            (fun he => nomatch he) hstill
        · exact (a₁.attempts_serve admission token _ w₁.cancelled).congr htopics hbus hup

/-! ## Operations -/

inductive Operation where
  /-- The endpoints are searched for. -/
  | locate (w : Web)
  /-- The authority is to come up. -/
  | connect (admission : Admission) (token : String) (w : Web)
  /-- It is to leave. -/
  | disconnect
  /-- Who had it come up gives up, and the inbox is served no more. -/
  | giveUp
  /-- A message is handled. -/
  | handle (r : Repository) (m : Message)
  /-- An agent was created, changed or deleted. -/
  | agentCreated (r : Repository) (agent : AgentModel)
  | agentUpdated (r : Repository) (agent : AgentModel)
  | agentDeleted (r : Repository) (agent : AgentModel)
  /-- The bus changes from without: messages arrive, calls of the transport begin to fail, the
  connection is lost. -/
  | rewire (bus : Bus)

def perform (a : Authority) : Operation → Authority
  | .locate w => (a.locate w).2.1
  | .connect admission token w => (a.connect admission token w).2.1
  | .disconnect => a.disconnect
  | .giveUp => { a with bus := a.bus.closeHandler a.inbox }
  | .handle r m => (a.handle r m).1
  | .agentCreated r agent => (a.agentCreated r agent).2
  | .agentUpdated r agent => (a.agentUpdated r agent).2
  | .agentDeleted r agent => (a.agentDeleted r agent).2
  | .rewire bus => { a with bus }

/-- Whether an operation can happen to an authority. -/
def Operation.Fits (a : Authority) : Operation → Prop
  | .rewire bus => a.bus.Endures bus
  | _ => True

def Feasible (a : Authority) : List Operation → Prop
  | [] => True
  | op :: ops => op.Fits a ∧ (a.perform op).Feasible ops

/-- Whether the inbox is looked after once an operation is over.  It is from when the authority
comes up, unless that was given up then or later, and until a call to come up fails and the
authority is up nevertheless. -/
def Operation.tends (a : Authority) (tended : Bool) : Operation → Bool
  | .connect admission token w =>
    match a.connect admission token w with
    | (.ok (), _, w') => if a.isConnected then tended else !w'.cancelled
    | (.error _, a', _) => tended && !a'.isConnected
  | .giveUp => false
  | _ => tended

/-- Whether the inbox is looked after at the end of a run. -/
def tends (a : Authority) (tended : Bool) : List Operation → Bool
  | [] => tended
  | op :: ops => (a.perform op).tends (op.tends a tended) ops

/-! ## Invariant -/

/-- The inbox is in the table once and alone. -/
structure Subscribes (a : Authority) (tended : Bool) (s : Subscription) : Prop where
  named : a.bus.named = [s]
  filter : s.filter = a.inbox
  handler : s.handler = a.inbox
  /-- While it is looked after, its task and its handler are at work. -/
  works : tended = true → a.isConnected = true → s.Works a.inbox

/-- An authority that counts as up has subscribed its inbox, and one that does not has nothing in
its table. -/
structure Tidy (a : Authority) (tended : Bool) : Prop where
  down : a.state.value ≠ .connected → a.bus.named = []
  up : a.state.value = .connected → ∃ s, a.Subscribes tended s

/-- An authority that counts as up and has no connection any more. -/
def Lost (a : Authority) : Prop := a.state.value = .connected ∧ a.bus.connected = false

variable {tended : Bool}

theorem Tidy.mem_filters_iff (h : a.Tidy tended) :
    a.inbox ∈ a.bus.filters ↔ a.state.value = .connected := by
  rw [Bus.filters_eq_named]
  constructor
  · intro hmem
    by_contra hdown
    rw [h.down hdown] at hmem
    cases hmem
  · intro hup
    obtain ⟨s, hs⟩ := h.up hup
    rw [hs.named, ← hs.filter]
    exact List.mem_singleton_self _

/-- Subscriptions that change in their places leave the authority tidy, if they stop working only
when the inbox is looked after no more or the authority is not up. -/
theorem Tidy.of_endures {tended' : Bool} (h : a.Tidy tended) (lasting : Bool)
    (htopics : a'.topics = a.topics)
    (hup : a'.state.value = .connected ↔ a.state.value = .connected)
    (hlasting : tended' = true → a'.isConnected = true →
      tended = true ∧ a.bus.connected = true ∧ lasting = true)
    (hnamed : List.Forall₂ (Subscription.Endures lasting) a.bus.named a'.bus.named) :
    a'.Tidy tended' where
  down hdown := by
    rw [h.down fun hold => hdown (hup.mpr hold), List.forall₂_nil_left_iff] at hnamed
    exact hnamed
  up hnew := by
    obtain ⟨s, hs⟩ := h.up (hup.mp hnew)
    have hinbox : a'.inbox = a.inbox := congrArg Generator.subscribeAsAuthority htopics
    -- the one subscription has one successor
    rw [hs.named] at hnamed
    obtain ⟨s', rest, hkept, hrest, heq⟩ := List.forall₂_cons_left_iff.mp hnamed
    rw [List.forall₂_nil_left_iff] at hrest
    rw [hrest] at heq
    refine ⟨s', heq, ?_, ?_, fun htended hconnected => ?_⟩
    · rw [hkept.filter, hs.filter, hinbox]
    · rw [hkept.handler, hs.handler, hinbox]
    · obtain ⟨hbefore, hbus, hlasts⟩ := hlasting htended hconnected
      have hwas : a.isConnected = true := isConnected_iff.mpr ⟨hup.mp hnew, hbus⟩
      rw [hinbox]
      exact hkept.works hlasts _ (hs.works hbefore hwas)

/-- So do subscriptions that do not change at all. -/
theorem Tidy.of_eq {tended' : Bool} (h : a.Tidy tended) (htopics : a'.topics = a.topics)
    (hup : a'.state.value = .connected ↔ a.state.value = .connected)
    (hsubscriptions : a'.bus.subscriptions = a.bus.subscriptions)
    (hlasting : tended' = true → a'.isConnected = true → tended = true ∧ a.bus.connected = true) :
    a'.Tidy tended' := by
  refine h.of_endures true htopics hup (fun htended hconnected => ?_) ?_
  · exact ⟨(hlasting htended hconnected).1, (hlasting htended hconnected).2, rfl⟩
  · have hnamed : a'.bus.named = a.bus.named := congrArg (List.filter _) hsubscriptions
    rw [hnamed, List.forall₂_same]
    exact fun s _ => ⟨rfl, rfl, rfl, fun _ _ hs => hs⟩

theorem Tidy.steady (h : a.Tidy tended) (hsteady : a.Steady a') : a'.Tidy tended := by
  refine h.of_eq hsteady.topics (by rw [hsteady.state]) hsteady.subscriptions ?_
  intro htended hconnected
  rw [← hsteady.connected]
  exact ⟨htended, (isConnected_iff.mp hconnected).2⟩

/-! ## Steps -/

theorem Tidy.locate (h : a.Tidy tended) (w : Web) : (a.locate w).2.1.Tidy tended := by
  obtain ⟨htopics, hbus, hup, -⟩ := a.locate_frame w
  refine h.of_eq htopics hup (congrArg Bus.subscriptions hbus) fun htended hconnected => ?_
  rw [← hbus]
  exact ⟨htended, (isConnected_iff.mp hconnected).2⟩

/-- A tidy authority that is down stands in its own way only if it is lost. -/
theorem Tidy.bus_connected_of_mem (h : a.Tidy tended) (hdown : a.isConnected = false)
    (hinbox : a.inbox ∈ a.bus.filters) : a.bus.connected = false := by
  rw [h.mem_filters_iff] at hinbox
  rw [← Bool.not_eq_true] at hdown ⊢
  exact fun hconnected => hdown (isConnected_iff.mpr ⟨hinbox, hconnected⟩)

/-- An authority that comes up was not lost: it counted as down, and its table was empty. -/
theorem Tidy.named_of_free (h : a.Tidy tended) (hfree : a.inbox ∉ a.bus.filters) :
    a.bus.named = [] := by
  rw [h.mem_filters_iff] at hfree
  exact h.down hfree

/-- The inbox of an authority that just came up. -/
theorem subscribes_inboxSubscription {givenUp : Bool} (htopics : a'.topics = a.topics)
    (hnamed : a'.bus.named = [a.inboxSubscription givenUp]) :
    a'.Subscribes (!givenUp) (a.inboxSubscription givenUp) := by
  have hinbox : a'.inbox = a.inbox := congrArg Generator.subscribeAsAuthority htopics
  refine ⟨hnamed, hinbox.symm, hinbox.symm, fun htended _ => ?_⟩
  rw [hinbox]
  exact ⟨rfl, rfl, rfl, htended⟩

theorem Tidy.connect (h : a.Tidy tended) (admission : Admission) (token : String) (w : Web) :
    (a.connect admission token w).2.1.Tidy
      (Operation.tends a tended (.connect admission token w)) := by
  dsimp only [Operation.tends]
  obtain ⟨hup, hconnect⟩ | ⟨hdown, hattempts⟩ := a.connect_cases admission token w
  · rw [hconnect]
    dsimp only
    rwa [if_pos hup]
  · rcases hconnect : a.connect admission token w with ⟨result, a', w'⟩
    rw [hconnect] at hattempts
    dsimp only at hattempts ⊢
    cases hattempts with
    | comesUp hfree htopics hup hconnected hnamed =>
      dsimp only
      rw [hdown, if_neg Bool.false_ne_true]
      have hsubscribes := subscribes_inboxSubscription htopics (hnamed (h.named_of_free hfree))
      exact ⟨fun hnot => absurd hup hnot, fun _ => ⟨_, hsubscribes⟩⟩
    | fails htopics hup hsubscriptions hduplicate =>
      -- if it counts as up nevertheless, the inbox is looked after no more
      refine h.of_eq htopics hup hsubscriptions fun htended hconnected => ?_
      simp [hconnected] at htended

theorem Tidy.disconnect (h : a.Tidy tended) : a.disconnect.Tidy tended := by
  unfold Authority.disconnect
  split
  · exact h
  · refine ⟨fun _ => Bus.named_disconnect _, fun hup => ?_⟩
    have hresting : a.restingState ≠ .connected := by
      unfold restingState
      split <;> exact fun heq => nomatch heq
    exact absurd hup hresting

theorem Tidy.giveUp (h : a.Tidy tended) :
    Tidy { a with bus := a.bus.closeHandler a.inbox } false := by
  refine h.of_endures false rfl .rfl (fun htended => nomatch htended) ?_
  rw [Bus.named_closeHandler, List.forall₂_map_right_iff, List.forall₂_same]
  intro s _
  split <;> exact ⟨rfl, rfl, rfl, fun hlasts => nomatch hlasts⟩

theorem Tidy.rewire (h : a.Tidy tended) {bus : Bus} (hbus : a.bus.Endures bus) :
    Tidy { a with bus } tended := by
  refine h.of_endures bus.connected rfl .rfl (fun htended hconnected => ?_) hbus.named
  have hstill : bus.connected = true := (isConnected_iff.mp hconnected).2
  exact ⟨htended, hbus.connected hstill, hstill⟩

/-- **Every operation leaves the authority tidy.** -/
theorem Tidy.perform (h : a.Tidy tended) {op : Operation} (hfits : op.Fits a) :
    (a.perform op).Tidy (op.tends a tended) := by
  cases op with
  | locate w => exact h.locate w
  | connect admission token w => exact h.connect admission token w
  | disconnect => exact h.disconnect
  | giveUp => exact h.giveUp
  | handle r m => exact h.steady (a.steady_handle r m)
  | agentCreated r agent => exact h.steady (a.steady_agentCreated r agent)
  | agentUpdated r agent => exact h.steady (a.steady_agentUpdated r agent)
  | agentDeleted r agent => exact h.steady (a.steady_agentDeleted r agent)
  | rewire bus => exact h.rewire hfits

/-! ## Results -/

/-- A call that succeeds was not made on a lost authority, and the authority is up after it. -/
theorem Tidy.connect_ok (h : a.Tidy tended) {admission : Admission} {token : String} {w : Web}
    (hok : (a.connect admission token w).1 = .ok ()) :
    ¬ a.Lost ∧ (a.connect admission token w).2.1.isConnected = true ∧
      (a.connect admission token w).2.1.topics = a.topics := by
  obtain ⟨hup, hconnect⟩ | ⟨-, hattempts⟩ := a.connect_cases admission token w
  · rw [hconnect]
    refine ⟨?_, hup, rfl⟩
    rintro ⟨-, hlost⟩
    rw [(isConnected_iff.mp hup).2] at hlost
    cases hlost
  · rw [hok] at hattempts
    cases hattempts with
    | comesUp hfree htopics hstate hconnected _ =>
      refine ⟨?_, isConnected_iff.mpr ⟨hstate, hconnected⟩, htopics⟩
      rintro ⟨hlost, -⟩
      exact hfree (h.mem_filters_iff.mpr hlost)

/-- A call that fails leaves the authority down, unless it was lost and is connected again. -/
theorem Tidy.connect_error (h : a.Tidy tended) {admission : Admission} {token : String} {w : Web}
    (herror : (a.connect admission token w).1 = .error e) :
    ((a.connect admission token w).2.1.isConnected = true ↔ e = .duplicateSubscription a.inbox) ∧
      (e = .duplicateSubscription a.inbox ↔
        a.Lost ∧ (a.connect admission token w).2.1.bus.connected = true) := by
  obtain ⟨-, hconnect⟩ | ⟨hdown, hattempts⟩ := a.connect_cases admission token w
  · rw [hconnect] at herror
    cases herror
  · rw [herror] at hattempts
    cases hattempts with
    | fails _ hstate _ hduplicate =>
      have hiff := hduplicate (h.bus_connected_of_mem hdown)
      have hlost : a.state.value = .connected ↔ a.Lost :=
        ⟨fun hup => ⟨hup, h.bus_connected_of_mem hdown (h.mem_filters_iff.mpr hup)⟩, And.left⟩
      rw [h.mem_filters_iff] at hiff
      rw [isConnected_iff, hstate, hiff, ← hlost]
      exact ⟨.rfl, .rfl⟩

/-! ## Runs -/

theorem Tidy.run {ops : List Operation} (h : a.Tidy tended) (hfeasible : a.Feasible ops) :
    (ops.foldl Authority.perform a).Tidy (a.tends tended ops) := by
  induction ops generalizing a tended with
  | nil => exact h
  | cons op ops ih => exact ih (h.perform hfeasible.1) hfeasible.2

theorem tidy_create {cipher : Cipher} {config : DiscoveryConfig}
    (hcreate : create cipher config = .ok a) : a.Tidy true := by
  cases hdiscovery : Discovery.create config with
  | error e =>
    unfold create at hcreate
    rw [hdiscovery] at hcreate
    cases hcreate
  | ok discovery =>
    unfold create at hcreate
    rw [hdiscovery] at hcreate
    cases hcreate
    exact ⟨fun _ => rfl, fun hup => nomatch hup⟩

theorem tends_concat (a : Authority) (tended : Bool) (ops : List Operation) (op : Operation) :
    a.tends tended (ops ++ [op]) =
      op.tends (ops.foldl Authority.perform a) (a.tends tended ops) := by
  induction ops generalizing a tended with
  | nil => rfl
  | cons op' ops ih => exact ih _ _

/-- **Coming up is all or nothing, unless the authority is lost.**  After any run of a new
authority a call to come up either succeeds: then the authority was not lost and is up, its inbox
is the one subscription in the table, and it is served by a task and a handler at work, if it is
looked after.  Or it fails: then the authority is down, unless the call failed because the inbox was
in the table already, which is the case exactly if the authority was lost and is connected again. -/
theorem connect_all_or_nothing {cipher : Cipher} {config : DiscoveryConfig}
    (hcreate : create cipher config = .ok a) {ops : List Operation} (hfeasible : a.Feasible ops)
    (admission : Admission) (token : String) (w : Web) :
    let b := ops.foldl Authority.perform a
    let result := (b.connect admission token w).1
    let b' := (b.connect admission token w).2.1
    (result = .ok () → ¬ b.Lost ∧ b'.isConnected = true ∧
      ∃ s, b'.bus.named = [s] ∧ s.filter = b.inbox ∧ s.handler = b.inbox ∧
        (a.tends true (ops ++ [.connect admission token w]) = true → s.Works b.inbox)) ∧
    ∀ e, result = .error e →
      (b'.isConnected = true ↔ e = .duplicateSubscription b.inbox) ∧
      (e = .duplicateSubscription b.inbox ↔ b.Lost ∧ b'.bus.connected = true) := by
  intro b result b'
  have hb : b.Tidy (a.tends true ops) := (tidy_create hcreate).run hfeasible
  have hb' : b'.Tidy (a.tends true (ops ++ [.connect admission token w])) := by
    rw [tends_concat]
    exact hb.connect admission token w
  refine ⟨fun hok => ?_, fun e herror => hb.connect_error herror⟩
  obtain ⟨hnot, hup, htopics⟩ := hb.connect_ok hok
  have hinbox : b'.inbox = b.inbox := congrArg Generator.subscribeAsAuthority htopics
  obtain ⟨s, hs⟩ := hb'.up (isConnected_iff.mp hup).1
  rw [← hinbox]
  exact ⟨hnot, hup, s, hs.named, hs.filter, hs.handler, fun htended => hs.works htended hup⟩

/-- An authority loses its connection and leaves; then it comes up, or the broker refuses it. -/
theorem connect_all_or_nothing_after_loss :
    let config : DiscoveryConfig := { authorityUri := "http://auth", brokerUri := some "b" }
    let willing : Admission := fun _ _ => .ok ()
    let refusing : Admission := fun _ _ => .error ⟨⟨"connection refused", []⟩, false⟩
    ∃ a, create .plain config = .ok a ∧
      let up := a.perform (.connect willing "t" {})
      let ops : List Operation := [.connect willing "t" {}, .rewire up.bus.drop, .disconnect]
      let b := ops.foldl Authority.perform a
      a.Feasible ops ∧
      (b.connect willing "t" {}).1 = .ok () ∧ (b.connect willing "t" {}).2.1.isConnected = true ∧
      (∃ s, (b.connect willing "t" {}).2.1.bus.named = [s] ∧ s.filter = b.inbox ∧
        s.handler = b.inbox ∧ s.Works b.inbox) ∧
      (b.connect refusing "t" {}).1 = .error (.connectivity "connection refused") ∧
      (b.connect refusing "t" {}).2.1.isConnected = false := by
  intro config willing refusing
  have hrun : ∃ a, create .plain config = .ok a ∧
      let up := a.perform (.connect willing "t" {})
      let ops : List Operation := [.connect willing "t" {}, .rewire up.bus.drop, .disconnect]
      let b := ops.foldl Authority.perform a
      (b.connect willing "t" {}).1 = .ok () ∧
      (b.connect refusing "t" {}).1 = .error (.connectivity "connection refused") ∧
      a.tends true (ops ++ [.connect willing "t" {}]) = true := by
    decide +kernel
  obtain ⟨a, hcreate, hok, herror, htended⟩ := hrun
  refine ⟨a, hcreate, ?_⟩
  intro up ops b
  have hfeasible : a.Feasible ops := ⟨trivial, Bus.endures_drop _, trivial, trivial⟩
  obtain ⟨-, hup, s, hnamed, hfilter, hhandler, hworks⟩ :=
    (connect_all_or_nothing hcreate hfeasible willing "t" {}).1 hok
  obtain ⟨hiff, -⟩ := (connect_all_or_nothing hcreate hfeasible refusing "t" {}).2 _ herror
  refine ⟨hfeasible, hok, hup, ⟨s, hnamed, hfilter, hhandler, hworks htended⟩, herror, ?_⟩
  -- a broker that refuses has nothing to do with the table
  rw [← Bool.not_eq_true, hiff]
  exact fun he => nomatch he

/-- **A call that fails and leaves the authority up.**  The connection is lost, and with it the
streams: the next call fails although the authority is up after it, and the call after that succeeds
although the inbox is not served any more. -/
theorem connect_fails_up_and_unserved :
    let config : DiscoveryConfig := { authorityUri := "http://auth", brokerUri := some "b" }
    let admission : Admission := fun _ _ => .ok ()
    ∃ a, create .plain config = .ok a ∧
      let up := a.perform (.connect admission "t" {})
      let lost := up.perform (.rewire up.bus.drop.endStreams)
      let again := lost.connect admission "t" {}
      let later := again.2.1.connect admission "t" {}
      a.Feasible [.connect admission "t" {}, .rewire up.bus.drop.endStreams] ∧
      again.1 = .error (.duplicateSubscription a.inbox) ∧ again.2.1.isConnected = true ∧
      later.1 = .ok () ∧ ∀ s ∈ later.2.1.bus.named, s.forwarding = false := by
  intro config admission
  have hrun : ∃ a, create .plain config = .ok a ∧
      let up := a.perform (.connect admission "t" {})
      let lost := up.perform (.rewire up.bus.drop.endStreams)
      let again := lost.connect admission "t" {}
      let later := again.2.1.connect admission "t" {}
      again.1 = .error (.duplicateSubscription a.inbox) ∧ again.2.1.isConnected = true ∧
      later.1 = .ok () ∧ ∀ s ∈ later.2.1.bus.named, s.forwarding = false := by
    decide +kernel
  obtain ⟨a, hcreate, hafter⟩ := hrun
  exact ⟨a, hcreate, ⟨trivial, Bus.endures_endStreams _, trivial⟩, hafter⟩

end Authority

end Coordination
