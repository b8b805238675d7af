import Coordination.Bus.Subscription
import Mathlib.Data.List.Basic
/-!
# The account of a subscription

What the handler of a subscription has received, what was forwarded to it and what still waits for
the task are, in this order, all that the subscription is due.  Each move of a subscription keeps
this account as long as the subscription works, and what the handler has received stays the first
part of what is due whatever happens.
-/

namespace Coordination.Subscription

/-- What a subscription of a filter is due when these messages are published. -/
def due (filter : String) (published : List RawMessage) : List Message :=
  (published.filter fun raw => Topic.matches filter raw.topic).map Message.ofRaw

theorem due_append (filter : String) (published raws : List RawMessage) :
    due filter (published ++ raws) = due filter published ++ due filter raws := by
  simp [due]

/-- What one step can do to a subscription, with what the broker takes and what the handler receives
in this step. -/
inductive Move (s : Subscription) : List RawMessage → List Message → Subscription → Prop where
  /-- Nothing happens to it. -/
  | rest : Move s [] [] s
  /-- The broker takes a message. -/
  | route (raw : RawMessage) : Move s [raw] [] (s.route raw)
  /-- Its owner ends it. -/
  | cancel : Move s [] [] s.cancel
  /-- Its handler stops receiving. -/
  | deafen : Move s [] [] s.deafen
  /-- Its task forwards a message, or finds that nobody receives it. -/
  | forward : Move s [] [] s.forward
  /-- Its task finds that it was ended. -/
  | halt (registered : s.registered = false) : Move s [] [] s.halt
  /-- Its handler receives a message. -/
  | take {m : Message} {later : List Message} (inbox : s.inbox = m :: later) :
    Move s [] [m] { s with inbox := later }

/-- The account of a subscription: what its handler received and what was forwarded to the handler
is the first part of what it is due, and as long as it works the rest waits for its task. -/
structure Accounts (filter : String) (published : List RawMessage) (received : List Message)
    (s : Subscription) : Prop where
  filter_eq : s.filter = filter
  inOrder : received ++ s.inbox <+: due filter published
  whole : s.forwarding = true → s.listening = true →
    received ++ s.inbox ++ s.pending.map Message.ofRaw = due filter published
  forwarding : s.registered = true → s.listening = true → s.forwarding = true

theorem accounts_new (filter handler : String) :
    Accounts filter [] [] { filter := filter, handler := handler } where
  filter_eq := rfl
  inOrder := List.prefix_refl []
  whole _ _ := rfl
  forwarding _ _ := rfl

variable {s s' : Subscription} {filter : String} {published raws : List RawMessage}
  {received taken : List Message}

theorem Accounts.route (h : s.Accounts filter published received) (raw : RawMessage) :
    (s.route raw).Accounts filter (published ++ [raw]) received := by
  have hmore : received ++ s.inbox <+: due filter (published ++ [raw]) := by
    rw [due_append]
    exact h.inOrder.trans (List.prefix_append _ _)
  by_cases haccepts : s.accepts raw = true
  · have hmatches : Topic.matches filter raw.topic = true := by
      rw [← h.filter_eq]
      exact (Bool.and_eq_true_iff.mp haccepts).2
    have hdue : due filter (published ++ [raw]) = due filter published ++ [Message.ofRaw raw] := by
      simp [due, hmatches]
    rw [Subscription.route, if_pos haccepts]
    refine ⟨h.filter_eq, hmore, fun hforwarding hlistening => ?_, h.forwarding⟩
    rw [hdue, ← h.whole hforwarding hlistening]
    simp
  · rw [Subscription.route, if_neg haccepts]
    refine ⟨h.filter_eq, hmore, fun hforwarding hlistening => ?_, h.forwarding⟩
    -- the task runs, so it is the filter that does not match
    have hmatches : ¬ Topic.matches filter raw.topic = true := by
      rw [← h.filter_eq]
      intro hmatches
      exact haccepts (Bool.and_eq_true_iff.mpr ⟨hforwarding, hmatches⟩)
    have hdue : due filter (published ++ [raw]) = due filter published := by
      simp [due, hmatches]
    rw [hdue]
    exact h.whole hforwarding hlistening

theorem Accounts.halt (h : s.Accounts filter published received)
    (hidle : ¬ (s.registered = true ∧ s.listening = true)) :
    s.halt.Accounts filter published received where
  filter_eq := h.filter_eq
  inOrder := h.inOrder
  whole hforwarding _ := nomatch hforwarding
  forwarding hregistered hlistening := absurd ⟨hregistered, hlistening⟩ hidle

theorem Accounts.forward (h : s.Accounts filter published received) :
    s.forward.Accounts filter published received := by
  unfold Subscription.forward
  split
  · next hforwarding =>
    cases hpending : s.pending with
    | nil => exact h
    | cons raw rest =>
      dsimp only
      split
      · next hlistening =>
        -- the first message goes from one queue to the next
        have hwhole := h.whole hforwarding hlistening
        rw [hpending, List.map_cons] at hwhole
        refine ⟨h.filter_eq, ?_, fun _ _ => ?_, fun _ _ => hforwarding⟩
        · rw [← hwhole]
          simp
        · rw [← hwhole]
          simp
      · next hlistening => exact h.halt fun hboth => hlistening hboth.2
  · exact h

theorem Accounts.move (h : s.Accounts filter published received) (hmove : s.Move raws taken s') :
    s'.Accounts filter (published ++ raws) (received ++ taken) := by
  cases hmove with
  | rest => simpa using h
  | route raw => simpa using h.route raw
  | cancel =>
    rw [List.append_nil, List.append_nil]
    exact ⟨h.filter_eq, h.inOrder, h.whole, fun hregistered => nomatch hregistered⟩
  | deafen =>
    rw [List.append_nil, List.append_nil]
    -- what was received is still the first part of what is due
    have hreceived : received ++ [] <+: due filter published := by
      rw [List.append_nil]
      exact (List.prefix_append received s.inbox).trans h.inOrder
    refine ⟨h.filter_eq, hreceived, ?_, ?_⟩
    · intro _ hlistening
      cases hlistening
    · intro _ hlistening
      cases hlistening
  | forward => simpa using h.forward
  | halt hregistered =>
    rw [List.append_nil, List.append_nil]
    refine h.halt fun hboth => ?_
    rw [hregistered] at hboth
    exact absurd hboth.1 Bool.false_ne_true
  | @take m later hinbox =>
    have hsame : received ++ [m] ++ later = received ++ s.inbox := by
      rw [hinbox]
      simp
    rw [List.append_nil]
    refine ⟨h.filter_eq, ?_, fun hforwarding hlistening => ?_, h.forwarding⟩
    · show received ++ [m] ++ later <+: _
      rw [hsame]
      exact h.inOrder
    · show received ++ [m] ++ later ++ _ = _
      rw [hsame]
      exact h.whole hforwarding hlistening

end Coordination.Subscription
