import Coordination.Proofs.Bus.Delivery
import Coordination.Proofs.Bus.Line
import Mathlib.Data.List.Induction
import Mathlib.Data.List.Nodup
/-!
# How long a filter is taken

A filter is taken from the moment at which a handler subscribes to it until someone lets go of it:
by unsubscribing, or by leaving the broker.  The task of the subscription may end before that, since
its handler stops receiving or its stream ends with the connection, and the table does not learn of
it.  So who may subscribe is a matter of the table alone, and whether somebody is served in the
meantime is another one.
-/

namespace Coordination

/-- Whether what is routed to a subscription reaches its handler: the task runs, and the handler can
still receive. -/
def Subscription.Serves (s : Subscription) : Prop := s.forwarding = true ∧ s.listening = true

namespace Bus

/-! ## Actions -/

/-- What may happen to a bus and to its subscriptions. -/
inductive Action where
  /-- The bus connects. -/
  | connect (admission : Admission) (token endpoint : String)
  /-- The connection is lost, and the streams wait for the next one. -/
  | lose
  /-- The connection is lost, and the streams end with it. -/
  | sever
  /-- From now on these calls of the transport fail. -/
  | fault (down : List TransportCall)
  /-- The bus leaves the broker. -/
  | disconnect
  /-- A handler subscribes to a filter. -/
  | subscribe (filter handler : String)
  /-- The subscription of a filter is ended. -/
  | unsubscribe (filter : String)
  /-- A handler stops receiving. -/
  | close (handler : String)
  /-- The bus publishes an event. -/
  | publishEvent (topic : String) (e : Event)
  /-- The bus publishes and waits until the transport has accepted. -/
  | publishAsync (m : Message)
  /-- The bus publishes and does not wait. -/
  | publish (m : Message)
  /-- A publication for which nobody waits comes to the transport. -/
  | send (place : Nat)
  /-- The broker takes what the transport accepted. -/
  | handOver
  /-- The broker routes a message to the subscriptions that it matches. -/
  | route (raw : RawMessage)
  /-- The task of a subscription forwards a message, or finds that nobody receives it. -/
  | forward (place : Nat)
  /-- The task of a subscription finds whether it was told to end. -/
  | finish (place : Nat)
  /-- The handler of a subscription receives a message. -/
  | take (place : Nat)
  /-- Time passes. -/
  | pass (now : Nat)

def modifySubscription (b : Bus) (place : Nat) (f : Subscription → Subscription) : Bus :=
  { b with subscriptions := b.subscriptions.modify place f }

def perform (b : Bus) : Action → Bus
  | .connect admission token endpoint => (b.connect admission token endpoint).2
  | .lose => b.drop
  | .sever => b.drop.endStreams
  | .fault down => { b with down }
  | .disconnect => b.disconnect.2
  | .subscribe filter handler => (b.subscribe filter handler).2
  | .unsubscribe filter => b.unsubscribe filter
  | .close handler => b.closeHandler handler
  | .publishEvent topic e => (b.publishEvent topic e).2
  | .publishAsync m => (b.publishAsync m).2
  | .publish m => (b.publish m).2
  | .send place => b.sendAt place
  | .handOver => b.handOver.2
  | .route raw => b.route raw
  | .forward place => b.modifySubscription place Subscription.forward
  | .finish place => b.modifySubscription place fun s => if s.registered then s else s.halt
  | .take place => b.modifySubscription place fun s => { s with inbox := s.inbox.tail }
  | .pass now => { b with now }

/-- A new bus after actions. -/
def run (actions : List Action) : Bus := actions.foldl perform {}

theorem run_snoc (actions : List Action) (a : Action) :
    run (actions ++ [a]) = (run actions).perform a :=
  List.foldl_concat ..

/-- Whether an action lets go of a filter. -/
def Action.LetsGo (filter : String) : Action → Prop
  | .disconnect => True
  | .unsubscribe other => other = filter
  | _ => False

/-- Whether an action keeps a handler from receiving through the subscriptions that it has. -/
def Action.Silences (handler : String) : Action → Prop
  | .sever => True
  | .close other => other = handler
  | _ => False

/-! ## The filters -/

theorem table_modifySubscription (b : Bus) (place : Nat) {f : Subscription → Subscription}
    (hf : ∀ s, (f s).filter = s.filter ∧ (f s).registered = s.registered) :
    (b.modifySubscription place f).table = b.table := by
  unfold table modifySubscription
  refine List.ext_getElem? fun i => ?_
  simp only [List.getElem?_map, List.getElem?_modify]
  cases b.subscriptions[i]? with
  | none => rfl
  | some s =>
    by_cases hplace : place = i
    · simp [hplace, hf s]
    · simp [hplace]

/-- Only who subscribes and who lets go of a filter concern the table. -/
theorem filters_perform (b : Bus) (a : Action) : (b.perform a).filters =
    match a with
    | .disconnect => []
    | .subscribe filter handler => (b.subscribe filter handler).2.filters
    | .unsubscribe filter => b.filters.filter fun f => f != filter
    | _ => b.filters := by
  have hsame : ∀ {b' : Bus}, b'.subscriptions = b.subscriptions → b'.filters = b.filters := by
    intro b' h
    unfold filters
    rw [h]
  -- three actions change which names are in the table; no other one touches them
  cases a with
  | connect admission token endpoint =>
    obtain ⟨b', hsubscriptions, ⟨-, detail, hconnect⟩ | ⟨-, hconnect⟩⟩ :=
      b.connect_cases admission token endpoint
    · refine hsame ?_
      rw [perform, hconnect, hsubscriptions]
    · refine hsame ?_
      rw [perform, hconnect, hsubscriptions]
  | lose => exact hsame rfl
  | sever => exact filters_congr (table_mapSubscriptions b.drop _ fun _ => ⟨rfl, rfl⟩)
  | fault down => exact hsame rfl
  | disconnect => exact b.filters_disconnect
  | subscribe filter handler => rfl
  | unsubscribe filter => exact b.filters_unsubscribe filter
  | close handler => exact b.filters_closeHandler handler
  | publishEvent topic e => exact b.filters_publishEvent topic e
  | publishAsync m => exact hsame (b.subscriptions_publishAsync m)
  | publish m => exact hsame (b.subscriptions_publish m)
  | send place => exact hsame (b.subscriptions_sendAt place)
  | handOver => exact hsame rfl
  | route raw => exact filters_congr (b.drifts_route raw).table
  | forward place =>
    refine filters_congr (b.table_modifySubscription place fun s => ?_)
    exact ⟨s.forward_frame.1, s.forward_frame.2.2⟩
  | finish place =>
    refine filters_congr (b.table_modifySubscription place fun s => ?_)
    split <;> exact ⟨rfl, rfl⟩
  | take place => exact filters_congr (b.table_modifySubscription place fun s => ⟨rfl, rfl⟩)
  | pass now => exact hsame rfl

/-- A filter is in the table after an action if somebody has subscribed to it, or if it was there
before and nobody has let go of it. -/
theorem mem_filters_perform {b : Bus} {a : Action} {filter : String} :
    filter ∈ (b.perform a).filters ↔
      (∃ owner, a = .subscribe filter owner ∧ (b.subscribe filter owner).1 = .ok ()) ∨
        filter ∈ b.filters ∧ ¬ a.LetsGo filter := by
  cases a with
  | subscribe other handler =>
    obtain ⟨e, he⟩ | ⟨-, -, hok⟩ := b.subscribe_cases other handler
    · simp only [filters_perform, he]
      refine ⟨fun hmem => .inr ⟨hmem, id⟩, ?_⟩
      rintro (⟨owner, heq, hok⟩ | ⟨hmem, -⟩)
      · cases heq
        rw [he] at hok
        cases hok
      · exact hmem
    · simp only [filters_perform, hok, filters_subscribed, List.mem_append, List.mem_singleton]
      constructor
      · rintro (hmem | rfl)
        · exact .inr ⟨hmem, id⟩
        · exact .inl ⟨handler, rfl, by rw [hok]⟩
      · rintro (⟨owner, heq, -⟩ | ⟨hmem, -⟩)
        · cases heq
          exact .inr rfl
        · exact .inl hmem
  -- only who unsubscribes a filter or disconnects lets go of it
  | unsubscribe other => simp [filters_perform, Action.LetsGo, @eq_comm _ other]
  | _ => simp [filters_perform, Action.LetsGo]

/-- The table names no filter twice. -/
theorem nodup_filters_perform {b : Bus} (hnodup : b.filters.Nodup) (a : Action) :
    (b.perform a).filters.Nodup := by
  rw [filters_perform]
  cases a with
  | disconnect => exact .nil
  | unsubscribe other => exact hnodup.filter _
  | subscribe other handler =>
    obtain ⟨e, he⟩ | ⟨-, hnew, hok⟩ := b.subscribe_cases other handler
    · simp only [he]
      exact hnodup
    · simp only [hok, filters_subscribed, ← List.concat_eq_append]
      exact hnodup.concat hnew
  | _ => exact hnodup

theorem nodup_filters_run (actions : List Action) : (run actions).filters.Nodup := by
  induction actions using List.reverseRecOn with
  | nil => exact .nil
  | append_singleton actions a ih =>
    rw [run_snoc]
    exact nodup_filters_perform ih a

/-! ## One subscription -/

/-- What an action may make of a subscription: it stays in the table unless the action lets go of
its filter, and as long as it is there it goes on to serve unless the action silences its
handler. -/
structure Passes (a : Action) (s s' : Subscription) : Prop where
  filter : s'.filter = s.filter
  handler : s'.handler = s.handler
  registered : ¬ a.LetsGo s.filter → s'.registered = s.registered
  serves : s'.registered = true → (s'.Serves ↔ s.Serves ∧ ¬ a.Silences s.handler)

/-- An action that silences nobody and leaves the subscription what it is. -/
theorem Passes.of_frame {a : Action} {s s' : Subscription} (hquiet : ¬ a.Silences s.handler)
    (hframe : s'.filter = s.filter ∧ s'.handler = s.handler ∧ s'.registered = s.registered)
    (hserves : s'.Serves ↔ s.Serves) : Passes a s s' where
  filter := hframe.1
  handler := hframe.2.1
  registered _ := hframe.2.2
  serves _ := hserves.trans (iff_self_and.mpr fun _ => hquiet)

/-- A task that forwards a message goes on, and one that ends had no handler that can receive. -/
theorem serves_forward_iff (s : Subscription) : s.forward.Serves ↔ s.Serves := by
  unfold Subscription.forward Subscription.Serves
  split
  · next hforwarding =>
    split
    · exact Iff.rfl
    · split
      · exact Iff.rfl
      · next hlistening => exact iff_of_false (fun h => nomatch h.1) fun h => hlistening h.2
  · exact Iff.rfl

/-- A subscription that an action changes or leaves alone, alike at all places. -/
theorem passes_mapSubscriptions {b : Bus} {a : Action} {place : Nat} {s : Subscription}
    (hs : b.subscriptions[place]? = some s) {p : Subscription → Bool}
    {f : Subscription → Subscription} (hchanged : p s = true → Passes a s (f s))
    (hsame : ¬ p s = true → Passes a s s) :
    ∃ s', (b.mapSubscriptions p f).subscriptions[place]? = some s' ∧ Passes a s s' := by
  refine ⟨_, getElem?_mapSubscriptions p f hs, ?_⟩
  split
  · next hp => exact hchanged hp
  · next hp => exact hsame hp

/-- A subscription of which one may be changed at some place. -/
theorem passes_modifySubscription {b : Bus} {a : Action} {place : Nat} {s : Subscription}
    (hs : b.subscriptions[place]? = some s) (spot : Nat) {f : Subscription → Subscription}
    (hchanged : Passes a s (f s)) (hsame : Passes a s s) :
    ∃ s', (b.modifySubscription spot f).subscriptions[place]? = some s' ∧ Passes a s s' := by
  have hmodified : (b.modifySubscription spot f).subscriptions[place]? =
      some (if spot = place then f s else s) := by
    unfold modifySubscription
    rw [List.getElem?_modify, hs]
    split <;> rfl
  refine ⟨_, hmodified, ?_⟩
  split
  · exact hchanged
  · exact hsame

/-- **What an action can do to a subscription.** -/
theorem passes_perform {b : Bus} {place : Nat} {s : Subscription}
    (hs : b.subscriptions[place]? = some s) (a : Action) :
    ∃ s', (b.perform a).subscriptions[place]? = some s' ∧ Passes a s s' := by
  -- most actions leave the subscriptions alone
  have hrest : ∀ {a : Action} {b' : Bus}, ¬ a.Silences s.handler →
      b'.subscriptions = b.subscriptions →
      ∃ s', b'.subscriptions[place]? = some s' ∧ Passes a s s' := by
    intro a b' hquiet heq
    exact ⟨s, heq ▸ hs, .of_frame hquiet ⟨rfl, rfl, rfl⟩ Iff.rfl⟩
  cases a with
  | connect admission token endpoint =>
    refine hrest id ?_
    obtain ⟨b', hsubscriptions, ⟨-, detail, hconnect⟩ | ⟨-, hconnect⟩⟩ :=
      b.connect_cases admission token endpoint
    · rw [perform, hconnect, hsubscriptions]
    · rw [perform, hconnect, hsubscriptions]
  | lose => exact hrest id rfl
  | sever =>
    refine passes_mapSubscriptions (b := b.drop) hs (fun _ => ⟨rfl, rfl, fun _ => rfl, fun _ => ?_⟩)
      fun hnone => absurd rfl hnone
    exact iff_of_false (fun h => nomatch h.1) fun h => h.2 trivial
  | fault down => exact hrest id rfl
  | disconnect =>
    -- what leaves the table need not serve any more
    rw [perform, subscriptions_disconnect]
    refine passes_mapSubscriptions hs (fun _ => ?_) fun hgone => ?_
    · exact ⟨rfl, rfl, fun hkeeps => absurd trivial hkeeps, fun hregistered => nomatch hregistered⟩
    · exact .of_frame id ⟨rfl, rfl, rfl⟩ Iff.rfl
  | subscribe filter handler =>
    obtain ⟨e, he⟩ | ⟨-, -, hok⟩ := b.subscribe_cases filter handler
    · exact hrest id (by rw [perform, he])
    · -- the new subscription stands behind the others
      refine ⟨s, ?_, .of_frame id ⟨rfl, rfl, rfl⟩ Iff.rfl⟩
      rw [perform, hok]
      exact (List.getElem?_append_left (List.getElem?_eq_some_iff.mp hs).1).trans hs
  | unsubscribe filter =>
    refine passes_mapSubscriptions hs (fun hboth => ?_) fun _ => ?_
    · rw [Bool.and_eq_true, beq_iff_eq] at hboth
      exact ⟨rfl, rfl, fun hkeeps => absurd hboth.2.symm hkeeps, fun hgone => nomatch hgone⟩
    · exact .of_frame id ⟨rfl, rfl, rfl⟩ Iff.rfl
  | close handler =>
    refine passes_mapSubscriptions hs (fun hsame => ?_) fun hother => ?_
    · rw [beq_iff_eq] at hsame
      refine ⟨rfl, rfl, fun _ => rfl, fun _ => ?_⟩
      exact iff_of_false (fun h => nomatch h.2) fun h => h.2 hsame.symm
    · rw [beq_iff_eq] at hother
      exact .of_frame (fun hsilences => hother hsilences.symm) ⟨rfl, rfl, rfl⟩ Iff.rfl
  | publishEvent topic e => exact hrest id (b.publishEvent_frame topic e).2.2.1
  | publishAsync m => exact hrest id (b.subscriptions_publishAsync m)
  | publish m => exact hrest id (b.subscriptions_publish m)
  | send place => exact hrest id (b.subscriptions_sendAt place)
  | handOver => exact hrest id rfl
  | route raw =>
    refine ⟨s.route raw, ?_, ?_⟩
    · show (b.subscriptions.map fun s => s.route raw)[place]? = _
      rw [List.getElem?_map, hs, Option.map_some]
    · unfold Subscription.route
      split <;> exact .of_frame id ⟨rfl, rfl, rfl⟩ Iff.rfl
  | forward spot =>
    exact passes_modifySubscription hs spot (.of_frame id s.forward_frame (serves_forward_iff s))
      (.of_frame id ⟨rfl, rfl, rfl⟩ Iff.rfl)
  | finish spot =>
    -- the task of a subscription in the table was not told to end
    refine passes_modifySubscription hs spot ?_ (.of_frame id ⟨rfl, rfl, rfl⟩ Iff.rfl)
    split
    · exact .of_frame id ⟨rfl, rfl, rfl⟩ Iff.rfl
    · next hgone => exact ⟨rfl, rfl, fun _ => rfl, fun hregistered => absurd hregistered hgone⟩
  | take spot =>
    exact passes_modifySubscription hs spot (.of_frame id ⟨rfl, rfl, rfl⟩ Iff.rfl)
      (.of_frame id ⟨rfl, rfl, rfl⟩ Iff.rfl)
  | pass now => exact hrest id rfl

/-! ## Runs -/

/-- The last of these actions are those after the owner subscribed to the filter: the bus accepted
that, and nothing has let go of the filter since. -/
def TakenSince (actions : List Action) (filter owner : String) (after : List Action) : Prop :=
  ∃ before, actions = before ++ .subscribe filter owner :: after ∧
    ((run before).subscribe filter owner).1 = .ok () ∧ ∀ a ∈ after, ¬ a.LetsGo filter

/-- One more action begins it, or goes by. -/
theorem takenSince_snoc_iff {actions after : List Action} {a : Action} {filter owner : String} :
    TakenSince (actions ++ [a]) filter owner after ↔
      (after = [] ∧ a = .subscribe filter owner ∧
        ((run actions).subscribe filter owner).1 = .ok ()) ∨
      ∃ earlier, after = earlier ++ [a] ∧ TakenSince actions filter owner earlier ∧
        ¬ a.LetsGo filter := by
  constructor
  · rintro ⟨before, heq, hok, hkeeps⟩
    obtain rfl | ⟨earlier, last, rfl⟩ := List.eq_nil_or_concat after
    -- the last action is the subscription itself
    · obtain ⟨rfl, hlast⟩ := List.append_inj' heq rfl
      exact .inl ⟨rfl, List.singleton_inj.mp hlast, hok⟩
    · rw [List.concat_eq_append] at heq hkeeps ⊢
      rw [← List.cons_append, ← List.append_assoc] at heq
      obtain ⟨rfl, hlast⟩ := List.append_inj' heq rfl
      obtain rfl := List.singleton_inj.mp hlast
      refine .inr ⟨earlier, rfl, ⟨before, rfl, hok, fun b hb => ?_⟩, ?_⟩
      · exact hkeeps b (List.mem_append_left _ hb)
      · exact hkeeps a (List.mem_append_right _ (List.mem_singleton_self a))
  · rintro (⟨rfl, rfl, hok⟩ | ⟨earlier, rfl, ⟨before, rfl, hok, hkeeps⟩, hlast⟩)
    · exact ⟨actions, rfl, hok, fun b hb => nomatch hb⟩
    · refine ⟨before, by simp, hok, fun b hb => ?_⟩
      obtain hb | hb := List.mem_append.mp hb
      · exact hkeeps b hb
      · rwa [List.mem_singleton.mp hb]

/-- The table names the filters that are taken. -/
theorem mem_filters_run_iff {actions : List Action} {filter : String} :
    filter ∈ (run actions).filters ↔ ∃ owner after, TakenSince actions filter owner after := by
  -- on the last action: it takes the filter, or it lets go of it, or nothing changes
  induction actions using List.reverseRecOn with
  | nil =>
    refine iff_of_false List.not_mem_nil ?_
    rintro ⟨owner, after, before, heq, -⟩
    exact absurd heq.symm (List.append_ne_nil_of_right_ne_nil _ (List.cons_ne_nil _ _))
  | append_singleton actions a ih =>
    rw [run_snoc, mem_filters_perform, ih]
    simp only [takenSince_snoc_iff]
    constructor
    · rintro (⟨owner, rfl, hok⟩ | ⟨⟨owner, after, htaken⟩, hkeeps⟩)
      · exact ⟨owner, [], .inl ⟨rfl, rfl, hok⟩⟩
      · exact ⟨owner, after ++ [a], .inr ⟨after, rfl, htaken, hkeeps⟩⟩
    · rintro ⟨owner, after, ⟨-, heq, hok⟩ | ⟨earlier, -, htaken, hkeeps⟩⟩
      · exact .inl ⟨owner, heq, hok⟩
      · exact .inr ⟨⟨owner, earlier, htaken⟩, hkeeps⟩

/-- While a filter is taken the table names a subscription of its owner, which serves unless
something has silenced the owner. -/
theorem exists_named_of_takenSince {actions after : List Action} {filter owner : String}
    (htaken : TakenSince actions filter owner after) :
    ∃ (place : Nat) (s : Subscription), (run actions).subscriptions[place]? = some s ∧
      s.filter = filter ∧ s.handler = owner ∧ s.registered = true ∧
      (s.Serves ↔ ∀ a ∈ after, ¬ a.Silences owner) := by
  induction actions using List.reverseRecOn generalizing after with
  | nil =>
    obtain ⟨before, heq, -⟩ := htaken
    exact absurd heq.symm (List.append_ne_nil_of_right_ne_nil _ (List.cons_ne_nil _ _))
  | append_singleton actions a ih =>
    rw [run_snoc]
    -- either the last action took the filter, or it was taken before and nobody let go of it
    obtain ⟨rfl, rfl, hok⟩ | ⟨earlier, rfl, hearlier, hkeeps⟩ := takenSince_snoc_iff.mp htaken
    · obtain ⟨e, he⟩ | ⟨-, -, hadded⟩ := (run actions).subscribe_cases filter owner
      · rw [he] at hok
        cases hok
      · refine ⟨(run actions).subscriptions.length, { filter, handler := owner }, ?_, rfl, rfl, rfl,
          iff_of_true ⟨rfl, rfl⟩ fun a ha => nomatch ha⟩
        rw [perform, hadded]
        exact List.getElem?_concat_length ..
    · -- the subscription stays at its place, and one more action is passed
      obtain ⟨place, s, hs, rfl, rfl, hregistered, hserves⟩ := ih hearlier
      obtain ⟨s', hs', hpasses⟩ := passes_perform hs a
      have hregistered' : s'.registered = true := (hpasses.registered hkeeps).trans hregistered
      refine ⟨place, s', hs', hpasses.filter, hpasses.handler, hregistered', ?_⟩
      rw [hpasses.serves hregistered', hserves, List.forall_mem_append, List.forall_mem_singleton]

/-- **Who is in the way of a subscription.**  On a connected bus, however it came where it is, a
filter is refused as a duplicate exactly if it is taken; and then it is served for its owner exactly
if since it was taken neither the owner has stopped receiving nor the streams have ended. -/
theorem duplicateSubscription_iff {actions : List Action}
    (hconnected : (run actions).connected = true) (filter handler : String) :
    (((run actions).subscribe filter handler).1 = .error (.duplicateSubscription filter) ↔
      ∃ owner after, TakenSince actions filter owner after) ∧
    ∀ owner after, TakenSince actions filter owner after →
      ((∃ s ∈ (run actions).named, s.filter = filter ∧ s.Serves) ↔
        ∀ a ∈ after, ¬ a.Silences owner) := by
  refine ⟨?_, fun owner after htaken => ?_⟩
  · rw [← mem_filters_run_iff]
    constructor
    · intro herror
      exact (subscribe_error_iff hconnected herror).mp rfl
    · intro hmem
      obtain ⟨e, he⟩ | ⟨-, hnew, -⟩ := (run actions).subscribe_cases filter handler
      · have herror : ((run actions).subscribe filter handler).1 = .error e := by rw [he]
        rw [herror, (subscribe_error_iff hconnected herror).mpr hmem]
      · exact absurd hmem hnew
  · obtain ⟨place, s, hs, rfl, rfl, hregistered, hserves⟩ := exists_named_of_takenSince htaken
    have hnamed : s ∈ (run actions).named :=
      List.mem_filter.mpr ⟨List.mem_of_getElem? hs, hregistered⟩
    rw [← hserves]
    constructor
    · rintro ⟨t, ht, hfilter, htserves⟩
      -- the table names no filter twice, so this is the subscription
      have hinj := List.inj_on_of_nodup_map (nodup_filters_run actions)
      rwa [hinj ht hnamed hfilter] at htserves
    · exact fun hs => ⟨s, hnamed, rfl, hs⟩

/-- A filter of which one handler has let go, and that another one has taken since. -/
theorem duplicateSubscription_iff_taken_again :
    let filter := "event/+/auth/h1/-"
    let raw : RawMessage := ⟨"event/-/auth/h1/-", .event, ByteArray.empty⟩
    let before : List Action :=
      [.connect (fun _ _ => .ok ()) "token" "broker", .subscribe filter "first",
        .unsubscribe filter]
    let after : List Action := [.close "first", .route raw, .forward 0, .forward 1]
    let actions := before ++ .subscribe filter "second" :: after
    (run actions).connected = true ∧
      (((run actions).subscribe filter "third").1 = .error (.duplicateSubscription filter) ↔
        ∃ owner after, TakenSince actions filter owner after) ∧
      TakenSince actions filter "second" after ∧
      ((∃ s ∈ (run actions).named, s.filter = filter ∧ s.Serves) ↔
        ∀ a ∈ after, ¬ a.Silences "second") := by
  intro filter raw before after actions
  have hconnected : (run actions).connected = true := by decide +kernel
  -- what comes after the second subscription never lets go of the filter
  have htaken : TakenSince actions filter "second" after := by
    refine ⟨before, rfl, by decide +kernel, ?_⟩
    simp [after, Action.LetsGo]
  have hiff := duplicateSubscription_iff hconnected filter "third"
  exact ⟨hconnected, hiff.1, htaken, hiff.2 "second" after htaken⟩

/-- A filter is refused as a duplicate although no task runs any more: the task has found its
handler gone, or its stream has ended with a connection that is back since. -/
theorem duplicate_of_ended_task :
    let filter := "event/+/auth/h1/-"
    let raw : RawMessage := ⟨"event/-/auth/h1/-", .event, ByteArray.empty⟩
    let connect : Action := .connect (fun _ _ => .ok ()) "token" "broker"
    ∀ actions ∈ [[connect, .subscribe filter "first", .close "first", .route raw, .forward 0],
        [connect, .subscribe filter "first", .sever, connect]],
      (run actions).connected = true ∧
        ((run actions).subscribe filter "second").1 = .error (.duplicateSubscription filter) ∧
        ∀ s ∈ (run actions).subscriptions, s.forwarding = false := by
  decide +kernel

end Bus

end Coordination
