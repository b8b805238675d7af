import Coordination.Bus.Basic
import Mathlib.Data.List.Basic
/-!
# The table of a bus

The table names the filters with a handler.  Subscribing adds a filter, unsubscribing takes it out
and leaving the broker clears the table; what arrives, what is handled and what happens to the
connection leave it alone.
-/

namespace Coordination

/-- Forwarding does not concern whose subscription it is, and whether the table names it. -/
theorem Subscription.forward_frame (s : Subscription) : s.forward.filter = s.filter ∧
    s.forward.handler = s.handler ∧ s.forward.registered = s.registered := by
  unfold forward
  split
  · split
    · exact ⟨rfl, rfl, rfl⟩
    · split <;> exact ⟨rfl, rfl, rfl⟩
  · exact ⟨rfl, rfl, rfl⟩

namespace Bus

variable {b b' : Bus}

/-- What the table says of all subscriptions ever made: the filter, and whether it is named. -/
def table (b : Bus) : List (String × Bool) := b.subscriptions.map fun s => (s.filter, s.registered)

theorem filters_eq_table (b : Bus) : b.filters = (b.table.filter Prod.snd).map Prod.fst := by
  unfold filters table
  rw [List.filter_map, List.map_map]
  rfl

/-- Two buses with one table name the same filters. -/
theorem filters_congr (h : b'.table = b.table) : b'.filters = b.filters := by
  rw [filters_eq_table, filters_eq_table, h]

theorem hasFilter_iff {filter : String} : b.hasFilter filter = true ↔ filter ∈ b.filters := by
  unfold hasFilter filters
  rw [List.any_eq_true, List.mem_map]
  constructor
  · rintro ⟨s, hs, hboth⟩
    rw [Bool.and_eq_true, beq_iff_eq] at hboth
    exact ⟨s, List.mem_filter.mpr ⟨hs, hboth.1⟩, hboth.2⟩
  · rintro ⟨s, hs, hfilter⟩
    obtain ⟨hmem, hregistered⟩ := List.mem_filter.mp hs
    exact ⟨s, hmem, by rw [hregistered, hfilter, beq_self_eq_true, Bool.and_self]⟩

/-- A change of what waits for the handlers does not concern the table. -/
theorem table_mapSubscriptions (b : Bus) (p : Subscription → Bool)
    {f : Subscription → Subscription}
    (hf : ∀ s, (f s).filter = s.filter ∧ (f s).registered = s.registered) :
    (b.mapSubscriptions p f).table = b.table := by
  unfold table mapSubscriptions
  rw [List.map_map]
  refine List.map_congr_left fun s _ => ?_
  show ((if p s then f s else s).filter, (if p s then f s else s).registered) =
    (s.filter, s.registered)
  by_cases hp : p s
  · rw [if_pos hp, (hf s).1, (hf s).2]
  · rw [if_neg hp]

/-! ## Connecting -/

/-- A call of the transport fails for want of the other side, or it does not fail. -/
theorem call_cases (b : Bus) (c : TransportCall) :
    (∃ detail, b.call c = .error (.connectivity detail)) ∨ b.call c = .ok () := by
  unfold call
  split
  · exact .inl ⟨_, rfl⟩
  · exact .inr rfl

/-- Connecting leaves the subscriptions alone; it fails for want of the other side, or there is a
connection. -/
theorem connect_cases (b : Bus) (admission : Admission) (token endpoint : String) :
    ∃ b', b'.subscriptions = b.subscriptions ∧
      ((b'.connected = false ∧
          ∃ detail, b.connect admission token endpoint = (.error (.connectivity detail), b')) ∨
        (b'.connected = true ∧ b.connect admission token endpoint = (.ok (), b'))) := by
  unfold connect
  by_cases hconnected : b.connected = true
  · rw [if_pos hconnected]
    exact ⟨b, rfl, .inr ⟨hconnected, rfl⟩⟩
  · rw [if_neg hconnected]
    rw [Bool.not_eq_true] at hconnected
    -- the transport may refuse the call, and after it the broker the token
    obtain ⟨detail, hcall⟩ | hcall := b.call_cases .connect
    · rw [hcall]
      exact ⟨b, rfl, .inl ⟨hconnected, detail, rfl⟩⟩
    · rw [hcall]
      dsimp only
      split
      · refine ⟨_, ?_, .inl ⟨?_, _, rfl⟩⟩
        · rfl
        · exact hconnected
      · refine ⟨_, ?_, .inr ⟨?_, rfl⟩⟩
        · rfl
        · rfl

/-! ## Subscribing -/

def subscribed (b : Bus) (filter handler : String) : Bus :=
  let s : Subscription := { filter := filter, handler := handler }
  { b with subscriptions := b.subscriptions ++ [s] }.note [.subscribe filter]

theorem subscribe_cases (b : Bus) (filter handler : String) :
    (∃ e, b.subscribe filter handler = (.error e, b)) ∨
    (b.connected = true ∧ filter ∉ b.filters ∧
      b.subscribe filter handler = (.ok (), b.subscribed filter handler)) := by
  unfold subscribe
  split
  · exact .inl ⟨_, rfl⟩
  · next hconnected =>
    split
    · exact .inl ⟨_, rfl⟩
    · next hnew =>
      cases hcall : b.call .subscribe with
      | error e => exact .inl ⟨e, rfl⟩
      | ok _ =>
        refine .inr ⟨by simpa using hconnected, ?_, rfl⟩
        rwa [hasFilter_iff] at hnew

/-- On a connected bus it fails for a filter that the table names, and only then for this reason. -/
theorem subscribe_error_iff (hconnected : b.connected = true) {filter handler : String} {e : Error}
    (herror : (b.subscribe filter handler).1 = .error e) :
    e = .duplicateSubscription filter ↔ filter ∈ b.filters := by
  unfold subscribe at herror
  rw [if_neg (by simp [hconnected])] at herror
  rw [← hasFilter_iff]
  split at herror
  · next hfilter =>
    cases herror
    exact iff_of_true rfl hfilter
  · next hfilter =>
    refine iff_of_false ?_ hfilter
    -- what the transport reports is never a duplicate
    rintro rfl
    obtain ⟨detail, hcall⟩ | hcall := b.call_cases .subscribe
    · rw [hcall] at herror
      cases herror
    · rw [hcall] at herror
      cases herror

/-- A filter that the table does not name yet can be subscribed on a bus that works. -/
theorem subscribe_of_not_mem (hconnected : b.connected = true) (hdown : b.down = [])
    {filter : String} (hnew : filter ∉ b.filters) (handler : String) :
    b.subscribe filter handler = (.ok (), b.subscribed filter handler) := by
  have hfilter : ¬ b.hasFilter filter = true := by rwa [hasFilter_iff]
  have hcall : b.call .subscribe = .ok () := by
    unfold call
    rw [hdown]
    rfl
  unfold subscribe
  rw [if_neg (by simp [hconnected]), if_neg hfilter, hcall]
  rfl

theorem filters_subscribed (b : Bus) (filter handler : String) :
    (b.subscribed filter handler).filters = b.filters ++ [filter] := by
  simp [filters, subscribed, note]

/-! ## Letting go -/

theorem filters_unsubscribe (b : Bus) (filter : String) :
    (b.unsubscribe filter).filters = b.filters.filter fun f => f != filter := by
  unfold unsubscribe mapSubscriptions filters
  induction b.subscriptions with
  | nil => rfl
  | cons s ss ih =>
    by_cases hregistered : s.registered = true
    · by_cases hfilter : s.filter = filter
      · simpa [hregistered, hfilter, Subscription.cancel] using ih
      · simpa [hregistered, hfilter] using ih
    · simpa [hregistered] using ih

theorem filters_closeHandler (b : Bus) (handler : String) :
    (b.closeHandler handler).filters = b.filters :=
  filters_congr (table_mapSubscriptions b _ fun _ => ⟨rfl, rfl⟩)

/-- Leaving the broker clears the table, also when the transport does not let go. -/
theorem filters_disconnect (b : Bus) : b.disconnect.2.filters = [] := by
  have hcleared :
      (b.mapSubscriptions Subscription.registered Subscription.cancel).filters = [] := by
    unfold filters mapSubscriptions
    rw [List.map_eq_nil_iff, List.filter_eq_nil_iff]
    rintro s hs
    obtain ⟨t, -, rfl⟩ := List.mem_map.mp hs
    by_cases ht : t.registered = true
    · rw [if_pos ht]
      exact Bool.false_ne_true
    · rwa [if_neg ht]
  unfold disconnect
  cases hcall : b.call .disconnect with
  | error e => exact hcleared
  | ok _ => exact hcleared

/-! ## Publishing -/

/-- Publishing leaves the connection and the subscriptions alone, and hands no message over but the
one that carries the event. -/
theorem publishEvent_frame (b : Bus) (topic : String) (e : Event) :
    (b.publishEvent topic e).2.connected = b.connected ∧
      (b.publishEvent topic e).2.down = b.down ∧
      (b.publishEvent topic e).2.subscriptions = b.subscriptions ∧
      ∀ raw ∈ (b.publishEvent topic e).2.accepted, raw ∈ b.accepted ∨ raw.topic = topic := by
  unfold publishEvent publishAsync
  split
  · exact ⟨rfl, rfl, rfl, fun raw hraw => .inl hraw⟩
  · split
    · exact ⟨rfl, rfl, rfl, fun raw hraw => .inl hraw⟩
    · refine ⟨rfl, rfl, rfl, fun raw hraw => ?_⟩
      rcases List.mem_append.mp hraw with hold | hlast
      · exact .inl hold
      · obtain rfl := List.mem_singleton.mp hlast
        exact .inr rfl

/-- Either the transport accepts the message, or it is not reached and the sender is told so. -/
theorem publishEvent_cases (b : Bus) (topic : String) (e : Event) :
    (∃ err, (err = .notConnected ∨ ∃ detail, err = .connectivity detail) ∧
      (b.publishEvent topic e).1 = .error err ∧ (b.publishEvent topic e).2.trace = b.trace) ∨
    ((b.publishEvent topic e).1 = .ok () ∧ (b.publishEvent topic e).2.trace = b.trace ++
      [.publish (Message.ofData topic (e.toData (b.clock.stamp b.now))).toRaw]) := by
  unfold publishEvent publishAsync
  split
  · exact .inl ⟨_, .inl rfl, rfl, rfl⟩
  · split
    · next err hcall =>
      refine .inl ⟨err, .inr ?_, rfl, rfl⟩
      unfold call at hcall
      split at hcall
      · cases hcall
        exact ⟨_, rfl⟩
      · cases hcall
    · exact .inr ⟨rfl, rfl⟩

theorem filters_publishEvent (b : Bus) (topic : String) (e : Event) :
    (b.publishEvent topic e).2.filters = b.filters := by
  unfold filters
  rw [(b.publishEvent_frame topic e).2.2.1]

/-! ## From without -/

/-- A change of the bus that no call of its owner makes: messages travel, time passes, the transport
fails or works again, and the connection may be lost. -/
structure Drifts (b b' : Bus) : Prop where
  connected : b'.connected = true → b.connected = true
  table : b'.table = b.table

/-- Losing the connection is such a change. -/
theorem drifts_drop (b : Bus) : b.Drifts b.drop where
  connected h := nomatch h
  table := rfl

/-- So is a message that the broker routes. -/
theorem drifts_route (b : Bus) (raw : RawMessage) : b.Drifts (b.route raw) := by
  refine ⟨id, ?_⟩
  unfold table route
  rw [List.map_map]
  refine List.map_congr_left fun s _ => ?_
  show ((s.route raw).filter, (s.route raw).registered) = (s.filter, s.registered)
  unfold Subscription.route
  split <;> rfl

end Bus

end Coordination
