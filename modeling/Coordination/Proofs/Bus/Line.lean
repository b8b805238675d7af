import Coordination.Proofs.Bus.Table
import Mathlib.Data.List.Forall2
/-!
# What waits for a handler

The line of a handler are the subscriptions that lead to it.  What waits in a line was routed there
and not handled yet.  A handler with one subscription that works gets what the broker routes to it,
in this order, each message once.
-/

namespace Coordination

/-- A subscription that works: the table names it, its task runs and its handler receives. -/
structure Subscription.Works (s : Subscription) (filter : String) : Prop where
  filter : s.filter = filter
  registered : s.registered = true
  forwarding : s.forwarding = true
  listening : s.listening = true

namespace Bus

/-- The subscriptions that lead to a handler. -/
def line (b : Bus) (handler : String) : List Subscription :=
  b.subscriptions.filter fun s => s.handler == handler

/-- What waits for a handler, the oldest first: what was forwarded, and then what was not. -/
def waiting (b : Bus) (handler : String) : List Message :=
  (b.line handler).flatMap fun s => s.inbox ++ s.pending.map Message.ofRaw

/-- One subscription leads to a handler, and it works; filter and handler have one name. -/
def Attends (b : Bus) (x : String) : Prop := ∃ s : Subscription, b.line x = [s] ∧ s.Works x

/-- The tasks of a handler forward one message each. -/
def forward (b : Bus) (handler : String) : Bus :=
  b.mapSubscriptions (fun s => s.handler == handler) Subscription.forward

def dropFirst (b : Bus) (handler : String) : Bus :=
  b.mapSubscriptions (fun s => s.handler == handler) fun s => { s with inbox := s.inbox.tail }

variable {b : Bus} {x : String}

/-! ## Lines -/

/-- A change that leaves every handler in its place changes the members of a line. -/
theorem line_map {f : Subscription → Subscription} (hf : ∀ s, (f s).handler = s.handler) (b : Bus)
    (x : String) : line { b with subscriptions := b.subscriptions.map f } x = (b.line x).map f := by
  unfold line
  rw [List.filter_map]
  congr 1
  refine List.filter_congr fun s _ => ?_
  rw [Function.comp_apply, hf]

/-- A change for other subscriptions leaves the line alone. -/
theorem line_mapSubscriptions_of_not {p : Subscription → Bool} {f : Subscription → Subscription}
    (hf : ∀ s, (f s).handler = s.handler) (hp : ∀ s ∈ b.line x, p s = false) :
    (b.mapSubscriptions p f).line x = b.line x := by
  have hhandler : ∀ s, (if p s then f s else s).handler = s.handler := by
    intro s
    split
    · exact hf s
    · rfl
  have hself : ∀ s ∈ b.line x, (if p s then f s else s) = s := by
    intro s hs
    rw [hp s hs]
    rfl
  unfold mapSubscriptions
  rw [line_map hhandler]
  exact (List.map_congr_left hself).trans (List.map_id' _)

theorem handler_of_mem_line {s : Subscription} (h : s ∈ b.line x) : s.handler = x :=
  beq_iff_eq.mp (List.mem_filter.mp h).2

/-- A change for one handler changes the line of this handler, and no other. -/
theorem line_mapHandler {f : Subscription → Subscription} (hf : ∀ s, (f s).handler = s.handler)
    (b : Bus) (y x : String) :
    (b.mapSubscriptions (fun s => s.handler == y) f).line x =
      if y = x then (b.line x).map f else b.line x := by
  by_cases hyx : y = x
  · subst hyx
    have hhandler : ∀ s : Subscription,
        (if s.handler == y then f s else s).handler = s.handler := by
      intro s
      split
      · exact hf s
      · rfl
    rw [if_pos rfl]
    unfold mapSubscriptions
    rw [line_map hhandler]
    refine List.map_congr_left fun s hs => ?_
    rw [handler_of_mem_line hs, beq_self_eq_true]
    rfl
  · rw [if_neg hyx]
    -- the subscriptions of another handler stand in another line
    refine line_mapSubscriptions_of_not hf fun s hs => ?_
    rw [handler_of_mem_line hs, beq_eq_false_iff_ne]
    exact Ne.symm hyx

/-- A subscription joins the line of its handler. -/
theorem line_subscribed (b : Bus) (filter handler x : String) :
    (b.subscribed filter handler).line x =
      b.line x ++ if handler = x then [{ filter := filter, handler := handler }] else [] := by
  unfold line subscribed note
  rw [List.filter_append]
  by_cases hx : handler = x <;> simp [hx]

/-- What waits for a handler that still receives is what waits in its line. -/
theorem inbox_eq_line (b : Bus) (x : String) :
    b.inbox x = (b.line x).flatMap Subscription.inbox := by
  unfold inbox line
  induction b.subscriptions with
  | nil => rfl
  | cons s ss ih =>
    by_cases hs : s.handler = x
    · simp [hs, ih]
    · simp [hs, ih]

theorem waiting_of_line_nil (h : b.line x = []) : b.waiting x = [] := by
  unfold waiting
  rw [h]
  rfl

theorem waiting_of_line {s : Subscription} (h : b.line x = [s]) :
    b.waiting x = s.inbox ++ s.pending.map Message.ofRaw := by
  unfold waiting
  rw [h]
  exact List.append_nil _

/-! ## A handler with one subscription -/

theorem Attends.line_ne_nil (h : b.Attends x) : b.line x ≠ [] := by
  obtain ⟨s, hline, -⟩ := h
  rw [hline]
  exact List.cons_ne_nil s []

theorem line_route (b : Bus) (raw : RawMessage) (x : String) :
    (b.route raw).line x = (b.line x).map fun s => s.route raw := by
  refine line_map (fun s => ?_) b x
  unfold Subscription.route
  split <;> rfl

/-- What the broker routes to the handler waits behind the rest. -/
theorem Attends.route (h : b.Attends x) (raw : RawMessage) :
    (b.route raw).Attends x ∧ (b.route raw).waiting x =
      b.waiting x ++ ([raw].filter fun raw => Topic.matches x raw.topic).map Message.ofRaw := by
  obtain ⟨s, hline, hs⟩ := h
  have hrouted : (b.route raw).line x = [s.route raw] := by
    rw [line_route, hline]
    rfl
  have haccepts : s.accepts raw = Topic.matches x raw.topic := by
    unfold Subscription.accepts
    rw [hs.forwarding, hs.filter, Bool.true_and]
  rw [waiting_of_line hline, waiting_of_line hrouted]
  unfold Attends
  -- the one subscription of the line gets the message, or the message is not for it
  by_cases hmatches : Topic.matches x raw.topic = true
  · have hnew : s.route raw = { s with pending := s.pending ++ [raw] } := by
      unfold Subscription.route
      rw [haccepts, if_pos hmatches]
    rw [hrouted, hnew]
    refine ⟨⟨_, rfl, hs.filter, hs.registered, hs.forwarding, hs.listening⟩, ?_⟩
    rw [List.filter_singleton, hmatches]
    simp
  · have hold : s.route raw = s := by
      unfold Subscription.route
      rw [haccepts, if_neg hmatches]
    rw [hrouted, hold]
    refine ⟨⟨s, rfl, hs⟩, ?_⟩
    rw [Bool.not_eq_true] at hmatches
    rw [List.filter_singleton, hmatches]
    simp

/-- Forwarding leaves the messages in their order. -/
theorem Attends.forward (h : b.Attends x) (y : String) :
    (b.forward y).Attends x ∧ (b.forward y).waiting x = b.waiting x := by
  obtain ⟨s, hline, hs⟩ := h
  have hforwarded : (b.forward y).line x = if y = x then [s.forward] else [s] := by
    unfold Bus.forward
    rw [line_mapHandler fun s => s.forward_frame.2.1, hline]
    rfl
  by_cases hyx : y = x
  · rw [if_pos hyx] at hforwarded
    -- what is forwarded moves from the stream to the handler, and so keeps its place
    have hworks : s.forward.Works x ∧ s.forward.inbox ++ s.forward.pending.map Message.ofRaw =
        s.inbox ++ s.pending.map Message.ofRaw := by
      unfold Subscription.forward
      rw [if_pos hs.forwarding]
      cases hpending : s.pending with
      | nil => exact ⟨hs, by rw [hpending]⟩
      | cons raw rest =>
        dsimp only
        rw [if_pos hs.listening]
        exact ⟨⟨hs.filter, hs.registered, hs.forwarding, hs.listening⟩, by simp⟩
    rw [waiting_of_line hline, waiting_of_line hforwarded]
    exact ⟨⟨s.forward, hforwarded, hworks.1⟩, hworks.2⟩
  · rw [if_neg hyx] at hforwarded
    rw [waiting_of_line hline, waiting_of_line hforwarded]
    exact ⟨⟨s, hforwarded, hs⟩, rfl⟩

theorem line_dropFirst {s : Subscription} (h : b.line x = [s]) :
    (b.dropFirst x).line x = [{ s with inbox := s.inbox.tail }] := by
  unfold dropFirst
  rw [line_mapHandler (f := fun s => { s with inbox := s.inbox.tail }) fun _ => rfl, if_pos rfl, h]
  rfl

/-- A handler that takes a message takes the first of those that wait. -/
theorem Attends.dropFirst (h : b.Attends x) {m : Message} {rest : List Message}
    (hinbox : b.inbox x = m :: rest) :
    (b.dropFirst x).Attends x ∧ b.waiting x = m :: (b.dropFirst x).waiting x := by
  obtain ⟨s, hline, hs⟩ := h
  have hdropped := line_dropFirst hline
  have hs_inbox : s.inbox = m :: rest := by
    rw [inbox_eq_line, hline] at hinbox
    simpa using hinbox
  rw [waiting_of_line hline, waiting_of_line hdropped, hs_inbox]
  exact ⟨⟨_, hdropped, hs.filter, hs.registered, hs.forwarding, hs.listening⟩, rfl⟩

/-- A handler whose topic is free attends to it after subscribing, and nothing waits yet. -/
theorem attends_subscribed (h : b.line x = []) :
    (b.subscribed x x).Attends x ∧ (b.subscribed x x).waiting x = [] := by
  have hline : (b.subscribed x x).line x = [{ filter := x, handler := x }] := by
    rw [line_subscribed, h, if_pos rfl]
    rfl
  rw [waiting_of_line hline]
  exact ⟨⟨_, hline, rfl, rfl, rfl, rfl⟩, rfl⟩

/-! ## The subscriptions in the table -/

/-- The subscriptions that the table names, the oldest first. -/
def named (b : Bus) : List Subscription := b.subscriptions.filter Subscription.registered

theorem filters_eq_named (b : Bus) : b.filters = b.named.map Subscription.filter := rfl

theorem named_subscribed (b : Bus) (filter handler : String) :
    (b.subscribed filter handler).named =
      b.named ++ [{ filter := filter, handler := handler }] := by
  simp [named, subscribed, note]

/-- A handler that stops receiving stays in the table. -/
theorem named_closeHandler (b : Bus) (handler : String) :
    (b.closeHandler handler).named =
      b.named.map fun s => if s.handler == handler then s.deafen else s := by
  unfold named closeHandler mapSubscriptions
  rw [List.filter_map]
  refine congrArg (List.map _) (List.filter_congr fun s _ => ?_)
  rw [Function.comp_apply]
  split <;> rfl

/-- Leaving the broker clears the table. -/
theorem named_disconnect (b : Bus) : b.disconnect.2.named = [] :=
  List.map_eq_nil_iff.mp b.filters_disconnect

end Bus

/-! ## Time passes -/

/-- What may become of a subscription that its owner does not touch: it stays what it is, and while
the connection lasts it goes on working. -/
structure Subscription.Endures (lasting : Bool) (s s' : Subscription) : Prop where
  filter : s'.filter = s.filter
  handler : s'.handler = s.handler
  registered : s'.registered = s.registered
  works : lasting = true → ∀ x, s.Works x → s'.Works x

namespace Bus

variable {b b' : Bus}

/-- A change of the bus that no call of its owner makes, and that ends no task unless the connection
is lost. -/
structure Endures (b b' : Bus) : Prop where
  connected : b'.connected = true → b.connected = true
  subscriptions :
    List.Forall₂ (Subscription.Endures b'.connected) b.subscriptions b'.subscriptions

theorem Endures.named (h : b.Endures b') :
    List.Forall₂ (Subscription.Endures b'.connected) b.named b'.named := by
  refine List.rel_filter (fun s s' hs => ?_) h.subscriptions
  show s.registered = true ↔ s'.registered = true
  rw [hs.registered]

/-- A change of every subscription in its place. -/
theorem endures_map (hconnected : b'.connected = true → b.connected = true)
    {f : Subscription → Subscription} (hsubscriptions : b'.subscriptions = b.subscriptions.map f)
    (hf : ∀ s, Subscription.Endures b'.connected s (f s)) : b.Endures b' := by
  refine ⟨hconnected, ?_⟩
  rw [hsubscriptions, List.forall₂_map_right_iff, List.forall₂_same]
  exact fun s _ => hf s

/-- The connection may be lost. -/
theorem endures_drop (b : Bus) : b.Endures b.drop :=
  endures_map (f := id) (fun h => nomatch h) (List.map_id _).symm fun _ =>
    ⟨rfl, rfl, rfl, fun h => nomatch h⟩

/-- Its streams may end with it. -/
theorem endures_endStreams (b : Bus) : b.Endures b.drop.endStreams :=
  endures_map (f := Subscription.halt) (fun h => nomatch h) rfl fun _ =>
    ⟨rfl, rfl, rfl, fun h => nomatch h⟩

end Bus

end Coordination
