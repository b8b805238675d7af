import Coordination.Proofs.Bus.Line
import Coordination.Proofs.Event.RoundTrip
import Mathlib.Data.List.Forall2
/-!
# Where the messages of a bus are

A message that is on its way is in one of three queues of a bus: accepted by the transport, routed
to the task of a subscription, or forwarded to a handler.  This module follows the events that
messages bring from queue to queue, for a handler with one subscription that works.  Whether an
event can be read from the message that brings it is a question of its own.
-/

namespace Coordination

structure Mail where
  topic : String
  event : Event

/-- A message on its way brings an event. -/
structure RawMessage.Brings (raw : RawMessage) (m : Mail) : Prop where
  topic : raw.topic = m.topic
  kind : raw.kind = .event
  data : ∃ timestamp, Json.Members.ofBytes? raw.payload = some (m.event.toData timestamp)

/-- A message that has arrived brings an event. -/
structure Message.Brings (got : Message) (m : Mail) : Prop where
  senderId : got.senderId = Topic.senderOf m.topic
  kind : got.kind = .event
  data : ∃ timestamp, got.data = some (m.event.toData timestamp)

theorem RawMessage.Brings.ofRaw {raw : RawMessage} {m : Mail} (h : raw.Brings m) :
    (Message.ofRaw raw).Brings m := by
  obtain ⟨timestamp, hdata⟩ := h.data
  refine ⟨congrArg Topic.senderOf h.topic, h.kind, timestamp, ?_⟩
  show (if raw.kind = .event then Json.Members.ofBytes? raw.payload else none) = _
  rw [if_pos h.kind, hdata]

/-- An event is brought by the message that is sent with it. -/
theorem brings_toRaw (e : Event) (topic timestamp : String) :
    (Message.ofData topic (e.toData timestamp)).toRaw.Brings ⟨topic, e⟩ :=
  ⟨rfl, rfl, timestamp, Json.Members.ofBytes?_toBytes (e.readable_toData timestamp)⟩

/-- What is read from a message is read from the data of its event. -/
theorem Message.Brings.decode {got : Message} {m : Mail} (h : got.Brings m) :
    ∃ timestamp, got.decode = Event.decode (m.event.toData timestamp) := by
  obtain ⟨timestamp, hdata⟩ := h.data
  refine ⟨timestamp, ?_⟩
  unfold Message.decode
  rw [if_pos h.kind, hdata]

/-- A complete event whose texts quote no other is read from the message that brings it. -/
theorem Message.Brings.decode_eq_ok {got : Message} {m : Mail} (h : got.Brings m)
    (he : m.event.Complete) (htexts : ∀ s ∈ m.event.textFields, ¬ Json.IsQuoted s) :
    got.decode = .ok m.event := by
  obtain ⟨timestamp, hdecode⟩ := h.decode
  exact hdecode.trans ((Event.decode_toData_eq_ok_iff he timestamp).mpr htexts)

namespace Bus

/-- The tasks of a handler have something to forward. -/
def hasPending (b : Bus) (x : String) : Bool :=
  (b.line x).any fun s => s.forwarding && !s.pending.isEmpty

/-- One subscription leads to the handler and works, and the messages in the three queues bring
these events, the oldest first. -/
structure Queues (b : Bus) (x : String) (accepted pending inbox : List Mail) : Prop where
  accepted : List.Forall₂ RawMessage.Brings b.accepted accepted
  line : ∃ s, b.line x = [s] ∧ s.Works x ∧ List.Forall₂ RawMessage.Brings s.pending pending ∧
    List.Forall₂ Message.Brings s.inbox inbox

variable {b : Bus} {x : String} {accepted pending inbox : List Mail} {m : Mail}

/-! ## What the queues show -/

theorem Queues.accepted_eq_nil_iff (h : b.Queues x accepted pending inbox) :
    b.accepted = [] ↔ accepted = [] := by
  rw [← List.length_eq_zero_iff, h.accepted.length_eq, List.length_eq_zero_iff]

/-- Nothing waits for a handler whose other two queues are empty. -/
theorem Queues.waiting_eq_nil_iff (h : b.Queues x accepted pending inbox) :
    b.waiting x = [] ↔ pending = [] ∧ inbox = [] := by
  obtain ⟨s, hline, -, hpending, hinbox⟩ := h.line
  rw [waiting_of_line hline, List.append_eq_nil_iff, List.map_eq_nil_iff,
    ← List.length_eq_zero_iff, ← List.length_eq_zero_iff, hinbox.length_eq, hpending.length_eq,
    List.length_eq_zero_iff, List.length_eq_zero_iff]
  exact and_comm

theorem Queues.hasPending_iff (h : b.Queues x accepted pending inbox) :
    b.hasPending x = true ↔ pending ≠ [] := by
  obtain ⟨s, hline, hworks, hpending, -⟩ := h.line
  unfold hasPending
  rw [hline, List.any_cons, List.any_nil, Bool.or_false, hworks.forwarding, Bool.true_and,
    Bool.not_eq_true', List.isEmpty_eq_false_iff, Ne, Ne, ← List.length_eq_zero_iff,
    hpending.length_eq, List.length_eq_zero_iff]

theorem Queues.inbox_eq (h : b.Queues x accepted pending inbox) :
    List.Forall₂ Message.Brings (b.inbox x) inbox := by
  obtain ⟨s, hline, -, -, hinbox⟩ := h.line
  rw [inbox_eq_line, hline]
  simpa using hinbox

theorem Queues.inbox_eq_nil_iff (h : b.Queues x accepted pending inbox) :
    b.inbox x = [] ↔ inbox = [] := by
  rw [← List.length_eq_zero_iff, h.inbox_eq.length_eq, List.length_eq_zero_iff]

/-! ## From queue to queue -/

theorem Queues.publishEvent (h : b.Queues x accepted pending inbox)
    (hconnected : b.connected = true) (hdown : b.down = []) (topic : String) (e : Event) :
    ∃ b', b.publishEvent topic e = (.ok (), b') ∧ b'.connected = true ∧ b'.down = [] ∧
      b'.Queues x (accepted ++ [⟨topic, e⟩]) pending inbox := by
  have hlast := brings_toRaw e topic (b.clock.stamp b.now)
  -- the transport works, so it accepts the message
  unfold Bus.publishEvent publishAsync call
  simp only [hconnected, hdown, List.not_mem_nil, Bool.not_true, Bool.false_eq_true, if_false]
  exact ⟨_, rfl, rfl, rfl, List.rel_append h.accepted (.cons hlast .nil), h.line⟩

theorem Queues.dropAccepted (h : b.Queues x (m :: accepted) pending inbox) :
    ∃ raw rest, b.accepted = raw :: rest ∧ raw.Brings m ∧
      Queues { b with accepted := b.accepted.tail } x accepted pending inbox := by
  obtain ⟨raw, rest, hraw, hrest, heq⟩ := List.forall₂_cons_right_iff.mp h.accepted
  refine ⟨raw, rest, heq, hraw, ?_, h.line⟩
  show List.Forall₂ RawMessage.Brings b.accepted.tail accepted
  rw [heq]
  exact hrest

/-- A message for the handler that the broker routes waits behind the others. -/
theorem Queues.route_of_matches (h : b.Queues x accepted pending inbox) {raw : RawMessage}
    (hraw : raw.Brings m) (hmatches : Topic.matches x m.topic = true) :
    (b.route raw).Queues x accepted (pending ++ [m]) inbox := by
  obtain ⟨s, hline, hworks, hpending, hinbox⟩ := h.line
  -- the task runs, so the filter alone decides
  have haccepts : s.accepts raw = true := by
    unfold Subscription.accepts
    rw [hworks.forwarding, hworks.filter, hraw.topic, hmatches]
    rfl
  have hrouted : s.route raw = { s with pending := s.pending ++ [raw] } := if_pos haccepts
  refine ⟨h.accepted, s.route raw, ?_, ?_⟩
  · rw [line_route, hline]
    rfl
  · rw [hrouted]
    exact ⟨⟨hworks.filter, hworks.registered, hworks.forwarding, hworks.listening⟩,
      List.rel_append hpending (.cons hraw .nil), hinbox⟩

/-- A message for others that the broker routes changes nothing. -/
theorem Queues.route_of_not_matches (h : b.Queues x accepted pending inbox) {raw : RawMessage}
    (hraw : raw.Brings m) (hmatches : ¬ Topic.matches x m.topic = true) :
    (b.route raw).Queues x accepted pending inbox := by
  obtain ⟨s, hline, hworks, hqueues⟩ := h.line
  have haccepts : ¬ s.accepts raw = true := by
    unfold Subscription.accepts
    rw [hworks.filter, hraw.topic, Bool.and_eq_true]
    exact fun hboth => hmatches hboth.2
  have hrouted : s.route raw = s := if_neg haccepts
  refine ⟨h.accepted, s, ?_, hworks, hqueues⟩
  rw [line_route, hline, List.map_singleton, hrouted]

theorem Queues.forward (h : b.Queues x accepted (m :: pending) inbox) :
    (b.forward x).Queues x accepted pending (inbox ++ [m]) := by
  obtain ⟨s, hline, hworks, hpending, hinbox⟩ := h.line
  obtain ⟨raw, rest, hraw, hrest, heq⟩ := List.forall₂_cons_right_iff.mp hpending
  -- the handler receives, so the task does not end here
  have hforwarded : s.forward =
      { s with pending := rest, inbox := s.inbox ++ [Message.ofRaw raw] } := by
    unfold Subscription.forward
    rw [if_pos hworks.forwarding, heq]
    exact if_pos hworks.listening
  refine ⟨h.accepted, s.forward, ?_, ?_⟩
  · have hhandler : ∀ s : Subscription, s.forward.handler = s.handler := by
      intro s
      unfold Subscription.forward
      split
      · split
        · rfl
        · split <;> rfl
      · rfl
    unfold Bus.forward
    rw [line_mapHandler hhandler, if_pos rfl, hline]
    rfl
  · rw [hforwarded]
    exact ⟨⟨hworks.filter, hworks.registered, hworks.forwarding, hworks.listening⟩, hrest,
      List.rel_append hinbox (.cons hraw.ofRaw .nil)⟩

theorem Queues.dropFirst (h : b.Queues x accepted pending (m :: inbox)) :
    ∃ got rest, b.inbox x = got :: rest ∧ got.Brings m ∧
      (b.dropFirst x).Queues x accepted pending inbox := by
  obtain ⟨got, rest, hgot, -, heq⟩ := List.forall₂_cons_right_iff.mp h.inbox_eq
  obtain ⟨s, hline, hworks, hpending, hinbox⟩ := h.line
  refine ⟨got, rest, heq, hgot, h.accepted, _, line_dropFirst hline,
    ⟨hworks.filter, hworks.registered, hworks.forwarding, hworks.listening⟩, hpending, ?_⟩
  obtain ⟨first, others, -, hothers, hs⟩ := List.forall₂_cons_right_iff.mp hinbox
  rw [hs]
  exact hothers

/-- A handler that has just subscribed under a free name finds its queues empty. -/
theorem queues_subscribed (hline : b.line x = []) (haccepted : b.accepted = []) :
    (b.subscribed x x).Queues x [] [] [] := by
  refine ⟨?_, { filter := x, handler := x }, ?_, ⟨rfl, rfl, rfl, rfl⟩, .nil, .nil⟩
  · show List.Forall₂ _ b.accepted []
    rw [haccepted]
    exact .nil
  · rw [line_subscribed, hline, if_pos rfl]
    rfl

end Bus

end Coordination
