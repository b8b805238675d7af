import Coordination.Bus.Network
import Coordination.Proofs.Bus.Account
import Coordination.Proofs.Bus.Table
/-!
# Delivery within a process

Any number of buses share a broker.  Their participants connect, subscribe, publish and leave, the
broker takes messages, the tasks of the subscriptions forward them and the handlers receive them,
one such step after another in any order.  Whatever the order is, the handler of a subscription
receives what was published since the subscription began and matches its filter: in the order of
publication and each message once.
-/

namespace Coordination

/-- One of the publications for which nobody waits comes to the transport; they come in any order,
and if the transport does not accept one nobody is told. -/
def Bus.sendAt (b : Bus) (place : Nat) : Bus :=
  match b.outgoing[place]? with
  | none => b
  | some raw =>
    let later := { b with outgoing := b.outgoing.eraseIdx place }
    if b.connected && !(TransportCall.publish ∈ b.down : Bool) then
      { later with accepted := b.accepted ++ [raw] }.note [.publish raw]
    else later

namespace Bus

theorem subscriptions_publishAsync (b : Bus) (m : Message) :
    (b.publishAsync m).2.subscriptions = b.subscriptions := by
  unfold publishAsync
  split
  · rfl
  · split <;> rfl

theorem subscriptions_publish (b : Bus) (m : Message) :
    (b.publish m).2.subscriptions = b.subscriptions := by
  unfold publish
  split <;> rfl

theorem subscriptions_sendAt (b : Bus) (place : Nat) :
    (b.sendAt place).subscriptions = b.subscriptions := by
  unfold sendAt
  split
  · rfl
  · dsimp only
    split <;> rfl

theorem subscriptions_disconnect (b : Bus) :
    b.disconnect.2.subscriptions =
      (b.mapSubscriptions Subscription.registered Subscription.cancel).subscriptions := by
  unfold disconnect
  cases b.call .disconnect <;> rfl

/-- A change of the subscriptions that satisfy a condition. -/
theorem getElem?_mapSubscriptions {b : Bus} {place : Nat} {s : Subscription}
    (p : Subscription → Bool) (f : Subscription → Subscription)
    (hs : b.subscriptions[place]? = some s) :
    (b.mapSubscriptions p f).subscriptions[place]? = some (if p s then f s else s) := by
  show (b.subscriptions.map _)[place]? = _
  rw [List.getElem?_map, hs, Option.map_some]

end Bus

namespace Network

inductive Action where
  /-- The broker begins or ceases to refuse connections. -/
  | refuse (refusing : Bool)
  /-- A bus connects. -/
  | connect (name token endpoint : String)
  /-- A bus loses its connection. -/
  | lose (name : String)
  /-- From now on these calls of the transport of a bus fail. -/
  | fault (name : String) (down : List TransportCall)
  /-- A bus leaves the broker. -/
  | disconnect (name : String)
  /-- A bus subscribes a handler to a filter. -/
  | subscribe (name filter handler : String)
  /-- A bus ends its subscription of a filter. -/
  | unsubscribe (name filter : String)
  /-- A bus publishes and waits until the transport has accepted. -/
  | publishAsync (name : String) (m : Message)
  /-- A bus publishes and does not wait. -/
  | publish (name : String) (m : Message)
  /-- A publication for which nobody waits comes to the transport. -/
  | send (name : String) (place : Nat)
  /-- The broker takes the next message from the transport of a bus. -/
  | collect (name : String)
  /-- The broker takes a message that comes from no bus. -/
  | broadcast (raw : RawMessage)
  /-- A handler stops receiving, on whatever bus. -/
  | close (handler : String)
  /-- The task of a subscription forwards a message, or finds that nobody receives it. -/
  | forward (name : String) (place : Nat)
  /-- The task of a subscription finds that it was ended. -/
  | finish (name : String) (place : Nat)
  /-- The handler of a subscription receives a message from it. -/
  | take (name : String) (place : Nat) (m : Message)

def updateBus (n : Network) (name : String) (f : Bus → Bus) : Network := n.put name (f (n.bus name))

/-- The subscription at a place among all that a bus ever made. -/
def subscription? (n : Network) (name : String) (place : Nat) : Option Subscription :=
  (n.bus name).subscriptions[place]?

def updateSubscription (n : Network) (name : String) (place : Nat)
    (f : Subscription → Subscription) : Network :=
  n.updateBus name fun b => { b with subscriptions := b.subscriptions.modify place f }

/-- What results from an action, if it can happen. -/
def Step (n : Network) : Action → Network → Prop
  | .refuse refusing, n' => n' = { n with broker := { n.broker with refusing } }
  | .connect name token endpoint, n' =>
    n' = n.updateBus name fun b => (b.connect n.broker.admission token endpoint).2
  | .lose name, n' => n' = n.updateBus name Bus.drop
  | .fault name down, n' => n' = n.updateBus name fun b => { b with down }
  | .disconnect name, n' => n' = n.updateBus name fun b => b.disconnect.2
  | .subscribe name filter handler, n' =>
    n' = n.updateBus name fun b => (b.subscribe filter handler).2
  | .unsubscribe name filter, n' => n' = n.updateBus name fun b => b.unsubscribe filter
  | .publishAsync name m, n' => n' = n.updateBus name fun b => (b.publishAsync m).2
  | .publish name m, n' => n' = n.updateBus name fun b => (b.publish m).2
  | .send name place, n' => n' = n.updateBus name fun b => b.sendAt place
  | .collect name, n' => ∃ raw rest, (n.bus name).accepted = raw :: rest ∧
      n' = (n.updateBus name fun b => { b with accepted := rest }).publish [raw]
  | .broadcast raw, n' => n' = n.publish [raw]
  | .close handler, n' => n' = n.mapBuses fun b => b.closeHandler handler
  | .forward name place, n' => n' = n.updateSubscription name place Subscription.forward
  | .finish name place, n' => ∃ s, n.subscription? name place = some s ∧ s.registered = false ∧
      n' = n.updateSubscription name place Subscription.halt
  | .take name place m, n' => ∃ s later, n.subscription? name place = some s ∧
      s.inbox = m :: later ∧
      n' = n.updateSubscription name place fun s => { s with inbox := later }

inductive Run (n : Network) : List Action → Network → Prop where
  | nil : Run n [] n
  | snoc {n' n'' : Network} {actions : List Action} {action : Action} (run : Run n actions n')
      (step : n'.Step action n'') : Run n (actions ++ [action]) n''

/-- What the handler of a subscription received, the oldest first. -/
def received (name : String) (place : Nat) (actions : List Action) : List Message :=
  actions.filterMap fun
    | .take other i m => if other = name ∧ i = place then some m else none
    | _ => none

theorem received_append (name : String) (place : Nat) (actions more : List Action) :
    received name place (actions ++ more) =
      received name place actions ++ received name place more :=
  List.filterMap_append

variable {n n' n'' : Network} {name other : String} {place : Nat} {s : Subscription}

/-! ## Buses by name -/

theorem lookup_setBus (name : String) (b : Bus) (buses : List (String × Bus)) :
    (setBus name b buses).lookup other = if other = name then some b else buses.lookup other := by
  have hcons : ∀ (k : String) (c : Bus) (rest : List (String × Bus)),
      ((k, c) :: rest).lookup other = if other = k then some c else rest.lookup other := by
    intro k c rest
    rw [List.lookup_cons]
    by_cases hk : other = k
    · simp [hk]
    · rw [beq_eq_false_iff_ne.mpr hk, if_neg hk]
  induction buses with
  | nil => exact hcons name b []
  | cons entry rest ih =>
    obtain ⟨k, c⟩ := entry
    unfold setBus
    by_cases hk : k = name
    · rw [if_pos hk, hcons, hcons, hk]
      by_cases hother : other = name <;> simp [hother]
    · rw [if_neg hk, hcons, hcons, ih]
      by_cases hother : other = k
      · rw [if_pos hother, if_pos hother, if_neg fun h => hk (hother.symm.trans h)]
      · rw [if_neg hother, if_neg hother]

theorem bus_updateBus (n : Network) (name other : String) (f : Bus → Bus) :
    (n.updateBus name f).bus other = if other = name then f (n.bus name) else n.bus other := by
  unfold updateBus put bus
  dsimp only
  rw [lookup_setBus]
  split <;> rfl

/-- A change of every bus that leaves a new bus as it is. -/
theorem bus_mapBuses {f : Bus → Bus} (hf : f {} = {}) (n : Network) (name : String) :
    (n.mapBuses f).bus name = f (n.bus name) := by
  unfold mapBuses bus
  dsimp only
  induction n.buses with
  | nil => exact hf.symm
  | cons entry rest ih =>
    obtain ⟨k, c⟩ := entry
    rw [List.map_cons, List.lookup_cons, List.lookup_cons]
    cases name == k with
    | true => rfl
    | false => exact ih

/-! ## What a step does to one subscription -/

theorem subscription?_publish (raw : RawMessage) (hs : n.subscription? name place = some s) :
    (n.publish [raw]).subscription? name place = some (s.route raw) := by
  unfold subscription? at hs ⊢
  unfold publish
  rw [bus_mapBuses rfl]
  show ((n.bus name).subscriptions.map fun s => s.route raw)[place]? = _
  rw [List.getElem?_map, hs, Option.map_some]

theorem subscription?_updateSubscription (other : String) (spot : Nat)
    (f : Subscription → Subscription)
    (hs : n.subscription? name place = some s) :
    (n.updateSubscription other spot f).subscription? name place =
      some (if name = other ∧ place = spot then f s else s) := by
  unfold subscription? at hs ⊢
  unfold updateSubscription
  rw [bus_updateBus]
  by_cases hname : name = other
  · rw [if_pos hname, ← hname, List.getElem?_modify, hs]
    by_cases hplace : place = spot
    · simp [hplace]
    · simp [hplace, Ne.symm hplace]
  · rw [if_neg hname, if_neg fun h => hname h.1]
    exact hs

/-- A bus that does something gives the subscription a move of its own, or leaves it alone. -/
theorem move_updateBus {f : Bus → Bus}
    (hf : ∀ s, (n.bus other).subscriptions[place]? = some s →
      ∃ s', (f (n.bus other)).subscriptions[place]? = some s' ∧ s.Move [] [] s')
    (hs : n.subscription? name place = some s) :
    ∃ s', (n.updateBus other f).subscription? name place = some s' ∧ s.Move [] [] s' := by
  unfold subscription? at hs ⊢
  rw [bus_updateBus]
  split
  · next heq =>
    rw [heq] at hs
    exact hf s hs
  · exact ⟨s, hs, .rest⟩

/-- What a bus does that leaves its subscriptions alone. -/
theorem move_of_eq {f : Bus → Bus}
    (hf : (f (n.bus other)).subscriptions = (n.bus other).subscriptions)
    (hs : n.subscription? name place = some s) :
    ∃ s', (n.updateBus other f).subscription? name place = some s' ∧ s.Move [] [] s' := by
  refine move_updateBus (fun s hs => ⟨s, ?_, .rest⟩) hs
  rw [hf]
  exact hs

/-- What the owner of a subscription, its task or its handler does to it alone. -/
theorem move_updateSubscription {at' : Nat} {f : Subscription → Subscription} {m : List Message}
    (hself : name = other ∧ place = at' → s.Move [] m (f s))
    (hother : ¬ (name = other ∧ place = at') → m = [])
    (hs : n.subscription? name place = some s) :
    ∃ s', (n.updateSubscription other at' f).subscription? name place = some s' ∧
      s.Move [] m s' := by
  refine ⟨_, subscription?_updateSubscription _ _ f hs, ?_⟩
  split
  · next hsame => exact hself hsame
  · next hsame =>
    rw [hother hsame]
    exact .rest

/-- **What a step can do.**  The broker takes at most one message, and the subscription makes one of
its moves with it. -/
theorem Step.move {action : Action} (h : n.Step action n')
    (hs : n.subscription? name place = some s) :
    ∃ raws s', n'.broker.history = n.broker.history ++ raws ∧
      n'.subscription? name place = some s' ∧ s.Move raws (received name place [action]) s' := by
  -- all but what the broker takes happens on one bus
  have hbus : ∀ {f : Bus → Bus} {bus : String} {m : List Message}, n' = n.updateBus bus f →
      (∃ s', (n.updateBus bus f).subscription? name place = some s' ∧ s.Move [] m s') →
      ∃ raws s', n'.broker.history = n.broker.history ++ raws ∧
        n'.subscription? name place = some s' ∧ s.Move raws m s' := by
    rintro f bus m rfl ⟨s', hs', hmove⟩
    exact ⟨[], s', (List.append_nil _).symm, hs', hmove⟩
  cases action with
  | refuse refusing =>
    cases h
    exact ⟨[], s, (List.append_nil _).symm, hs, .rest⟩
  | connect bus token endpoint =>
    refine hbus h (move_of_eq ?_ hs)
    obtain ⟨b, hsubscriptions, ⟨-, detail, hconnect⟩ | ⟨-, hconnect⟩⟩ :=
      (n.bus bus).connect_cases n.broker.admission token endpoint
    · rw [hconnect, hsubscriptions]
    · rw [hconnect, hsubscriptions]
  | lose bus => exact hbus h (move_of_eq rfl hs)
  | fault bus down => exact hbus h (move_of_eq rfl hs)
  | disconnect bus =>
    refine hbus h (move_updateBus (fun s hs => ?_) hs)
    rw [Bus.subscriptions_disconnect, Bus.getElem?_mapSubscriptions _ _ hs]
    refine ⟨_, rfl, ?_⟩
    split
    · exact .cancel
    · exact .rest
  | subscribe bus filter handler =>
    refine hbus h (move_updateBus (fun s hs => ⟨s, ?_, .rest⟩) hs)
    obtain ⟨e, hfailed⟩ | ⟨-, -, hdone⟩ := (n.bus bus).subscribe_cases filter handler
    · rw [hfailed]
      exact hs
    · -- the new subscription stands behind the others
      rw [hdone]
      exact (List.getElem?_append_left (List.getElem?_eq_some_iff.mp hs).1).trans hs
  | unsubscribe bus filter =>
    refine hbus h (move_updateBus (fun s hs => ?_) hs)
    refine ⟨_, Bus.getElem?_mapSubscriptions _ _ hs, ?_⟩
    split
    · exact .cancel
    · exact .rest
  | publishAsync bus m => exact hbus h (move_of_eq (Bus.subscriptions_publishAsync _ m) hs)
  | publish bus m => exact hbus h (move_of_eq (Bus.subscriptions_publish _ m) hs)
  | send bus i => exact hbus h (move_of_eq (Bus.subscriptions_sendAt _ i) hs)
  | collect bus =>
    obtain ⟨raw, rest, -, rfl⟩ := h
    have hsame : (n.updateBus bus fun b => { b with accepted := rest }).subscription? name place =
        some s := by
      unfold subscription? at hs ⊢
      rw [bus_updateBus]
      split
      · next heq => rwa [heq] at hs
      · exact hs
    exact ⟨[raw], _, rfl, subscription?_publish raw hsame, .route raw⟩
  | broadcast raw =>
    cases h
    exact ⟨[raw], _, rfl, subscription?_publish raw hs, .route raw⟩
  | close handler =>
    cases h
    refine ⟨[], if s.handler == handler then s.deafen else s, (List.append_nil _).symm, ?_, ?_⟩
    · unfold subscription? at hs ⊢
      rw [bus_mapBuses rfl]
      exact Bus.getElem?_mapSubscriptions _ _ hs
    · split
      · exact .deafen
      · exact .rest
  | forward bus i => exact hbus h (move_updateSubscription (fun _ => .forward) (fun _ => rfl) hs)
  | finish bus i =>
    obtain ⟨t, ht, hregistered, heq⟩ := h
    refine hbus heq (move_updateSubscription (fun hsame => ?_) (fun _ => rfl) hs)
    obtain ⟨rfl, rfl⟩ := hsame
    rw [hs, Option.some_inj] at ht
    subst ht
    exact .halt hregistered
  | take bus i m =>
    obtain ⟨t, later, ht, hinbox, heq⟩ := h
    have hreceived : received name place [.take bus i m] =
        if bus = name ∧ i = place then [m] else [] := by
      unfold received
      split <;> simp [*]
    rw [hreceived]
    refine hbus heq (move_updateSubscription (fun hsame => ?_) (fun hne => ?_) hs)
    · obtain ⟨rfl, rfl⟩ := hsame
      rw [hs, Option.some_inj] at ht
      subst ht
      rw [if_pos ⟨rfl, rfl⟩]
      exact .take hinbox
    · exact if_neg fun hsame => hne ⟨hsame.1.symm, hsame.2.symm⟩

/-! ## What a run does to one subscription -/

theorem Run.accounts {filter : String} {actions : List Action}
    (h : Run n actions n') (hs : n.subscription? name place = some s)
    (hnew : s.Accounts filter [] []) :
    ∃ published s', n'.broker.history = n.broker.history ++ published ∧
      n'.subscription? name place = some s' ∧
      s'.Accounts filter published (received name place actions) := by
  induction h with
  | nil => exact ⟨[], s, (List.append_nil _).symm, hs, hnew⟩
  | snoc run step ih =>
    obtain ⟨published, s', hhistory, hs', haccounts⟩ := ih
    obtain ⟨raws, s'', hmore, hs'', hmove⟩ := step.move hs'
    refine ⟨published ++ raws, s'', ?_, hs'', ?_⟩
    · rw [hmore, hhistory, List.append_assoc]
    · rw [received_append]
      exact haccounts.move hmove

theorem Run.cons {action : Action} {actions : List Action} (step : n.Step action n')
    (h : Run n' actions n'') : Run n (action :: actions) n'' := by
  induction h with
  | nil => exact Run.nil.snoc step
  | snoc run last ih => exact ih.snoc last

/-! ## Nothing is lost -/

/-- Whether an action is one of the task and the handler of a subscription. -/
def Action.Serves (name : String) (place : Nat) : Action → Prop
  | .forward other i => other = name ∧ i = place
  | .take other i _ => other = name ∧ i = place
  | _ => False

/-- Task and handler of a subscription that works can do their part by themselves, and then the
handler has received all that waited. -/
theorem exists_run_receiving (hs : n.subscription? name place = some s)
    (hforwarding : s.forwarding = true) (hlistening : s.listening = true) :
    ∃ more n', Run n more n' ∧ n'.broker = n.broker ∧ (∀ a ∈ more, a.Serves name place) ∧
      received name place more = s.inbox ++ s.pending.map Message.ofRaw := by
  -- a message needs two steps before the task has it forwarded, and one after that
  generalize hrank : 2 * s.pending.length + s.inbox.length = rank
  induction rank using Nat.strongRecOn generalizing n s with
  | _ rank ih =>
    match hinbox : s.inbox, hpending : s.pending with
    | m :: later, _ =>
      have hstep : n.Step (.take name place m)
          (n.updateSubscription name place fun s => { s with inbox := later }) :=
        ⟨s, later, hs, hinbox, rfl⟩
      have hs' := subscription?_updateSubscription name place
        (fun s => { s with inbox := later }) hs
      rw [if_pos ⟨rfl, rfl⟩] at hs'
      obtain ⟨more, n', hrun, hbroker, hserves, hreceived⟩ :=
        ih (2 * s.pending.length + later.length) (by simp [← hrank, hinbox]) hs' hforwarding
          hlistening rfl
      refine ⟨.take name place m :: more, n', .cons hstep hrun, hbroker, ?_, ?_⟩
      · intro a ha
        rcases List.mem_cons.mp ha with rfl | ha
        · exact ⟨rfl, rfl⟩
        · exact hserves a ha
      · rw [← List.singleton_append, received_append, hreceived]
        simp [received, hpending]
    | [], raw :: rest =>
      have hstep : n.Step (.forward name place)
          (n.updateSubscription name place Subscription.forward) := rfl
      have hforward : s.forward = { s with pending := rest, inbox := [Message.ofRaw raw] } := by
        simp [Subscription.forward, hforwarding, hlistening, hpending, hinbox]
      have hs' := subscription?_updateSubscription name place
        Subscription.forward hs
      rw [if_pos ⟨rfl, rfl⟩, hforward] at hs'
      obtain ⟨more, n', hrun, hbroker, hserves, hreceived⟩ :=
        ih (2 * rest.length + 1) (by simp [← hrank, hinbox, hpending]; omega) hs' hforwarding
          hlistening rfl
      refine ⟨.forward name place :: more, n', .cons hstep hrun, hbroker, ?_, ?_⟩
      · intro a ha
        rcases List.mem_cons.mp ha with rfl | ha
        · exact ⟨rfl, rfl⟩
        · exact hserves a ha
      · rw [← List.singleton_append, received_append, hreceived]
        simp [received]
    | [], [] => exact ⟨[], n, .nil, rfl, fun a ha => (List.not_mem_nil ha).elim, rfl⟩

/-- **Delivery is in order and without loss.**  Whatever happens on a network after a bus has
subscribed a handler, the handler receives messages that were published since, each as it was
published, in the order of publication and each once: what it has received is the first part of what
matches the filter.  As long as the subscription is in the table and the handler receives, the rest
waits for it, and its task and the handler can bring it there by themselves. -/
theorem received_in_order {b : Bus} {filter handler : String} {actions : List Action}
    (hsubscribe : (n.bus name).subscribe filter handler = (.ok (), b))
    (hrun : Run (n.put name b) actions n') :
    let place := (n.bus name).subscriptions.length
    ∃ published s, n'.broker.history = n.broker.history ++ published ∧
      n'.subscription? name place = some s ∧
      received name place actions <+: Subscription.due filter published ∧
      (s.registered = true → s.listening = true →
        received name place actions ++ s.inbox ++ s.pending.map Message.ofRaw =
          Subscription.due filter published ∧
        ∃ more n'', Run n' more n'' ∧ n''.broker = n'.broker ∧
          (∀ a ∈ more, a.Serves name place) ∧
          received name place (actions ++ more) = Subscription.due filter published) := by
  intro place
  -- the new subscription stands behind all others
  have hnew : (n.put name b).subscription? name place =
      some { filter := filter, handler := handler } := by
    have hbus : (n.put name b).bus name = b := by
      have hput := bus_updateBus n name name fun _ => b
      rwa [if_pos rfl] at hput
    obtain ⟨e, hfailed⟩ | ⟨-, -, hdone⟩ := (n.bus name).subscribe_cases filter handler
    · cases hfailed.symm.trans hsubscribe
    · cases hdone.symm.trans hsubscribe
      unfold subscription?
      rw [hbus]
      exact List.getElem?_concat_length
  obtain ⟨published, s, hhistory, hs, haccounts⟩ :=
    hrun.accounts hnew (Subscription.accounts_new filter handler)
  refine ⟨published, s, hhistory, hs, ?_, fun hregistered hlistening => ?_⟩
  · exact (List.prefix_append _ s.inbox).trans haccounts.inOrder
  · have hforwarding := haccounts.forwarding hregistered hlistening
    have hwhole := haccounts.whole hforwarding hlistening
    obtain ⟨more, n'', hmore, hbroker, hserves, hreceived⟩ :=
      exists_run_receiving hs hforwarding hlistening
    refine ⟨hwhole, more, n'', hmore, hbroker, hserves, ?_⟩
    rw [received_append, hreceived, ← List.append_assoc, hwhole]

/-- A bus publishes three messages, of which the first is for someone else: the handler on another
bus, which has subscribed before, comes to receive the other two. -/
theorem received_in_order_other_bus :
    let n : Network :=
      { buses := [("host", { connected := true }), ("authority", { connected := true })] }
    let mail (topic : String) : Message := ⟨.information, topic, none, none⟩
    let actions : List Action :=
      [.publishAsync "authority" (mail "event/-/auth/h2/-"), .collect "authority",
       .publishAsync "authority" (mail "event/-/auth/h1/-"), .collect "authority",
       .publishAsync "authority" (mail "event/-/auth/h1/-"), .collect "authority"]
    ∃ b n', (n.bus "host").subscribe "event/+/auth/h1/-" "inbox" = (.ok (), b) ∧
      Run (n.put "host" b) actions n' ∧
      ∃ more n'', Run n' more n'' ∧ received "host" 0 (actions ++ more) =
        [.ofRaw (mail "event/-/auth/h1/-").toRaw, .ofRaw (mail "event/-/auth/h1/-").toRaw] := by
  intro n mail actions
  let b : Bus := (n.bus "host").subscribed "event/+/auth/h1/-" "inbox"
  have hcollect : ∀ {n : Network} {name : String} (raw : RawMessage) (rest : List RawMessage),
      (n.bus name).accepted = raw :: rest → n.Step (.collect name)
        ((n.updateBus name fun b => { b with accepted := rest }).publish [raw]) :=
    fun raw rest h => ⟨raw, rest, h, rfl⟩
  have hmatches : Topic.matches "event/+/auth/h1/-" "event/-/auth/h1/-" = true ∧
      Topic.matches "event/+/auth/h1/-" "event/-/auth/h2/-" = false := by decide +kernel
  -- the run up to the third message, with what the broker has taken by then
  obtain ⟨n', hrun, hhistory, hworks⟩ : ∃ n', Run (n.put "host" b) actions n' ∧
      n'.broker.history = [(mail "event/-/auth/h2/-").toRaw, (mail "event/-/auth/h1/-").toRaw,
        (mail "event/-/auth/h1/-").toRaw] ∧
      (n'.subscription? "host" 0).map (fun s => (s.registered, s.listening)) =
        some (true, true) := by
    refine ⟨_, .cons rfl (.cons (hcollect _ _ rfl) (.cons rfl (.cons (hcollect _ _ rfl)
      (.cons rfl (.cons (hcollect _ _ rfl) .nil))))), rfl, by decide +kernel⟩
  obtain ⟨published, s, hpublished, hs, -, hwaits⟩ := received_in_order rfl hrun
  have hfirst : n'.subscription? "host" 0 = some s := hs
  rw [hfirst, Option.map_some, Option.some_inj, Prod.mk.injEq] at hworks
  obtain ⟨-, more, n'', hmore, -, -, hreceived⟩ := hwaits hworks.1 hworks.2
  refine ⟨b, n', rfl, hrun, more, n'', hmore, ?_⟩
  have hall : published = n'.broker.history := hpublished.symm
  have hdue : received "host" 0 (actions ++ more) = Subscription.due _ published := hreceived
  rw [hdue, hall, hhistory]
  simp [Subscription.due, mail, Message.toRaw, hmatches]

end Network

end Coordination
