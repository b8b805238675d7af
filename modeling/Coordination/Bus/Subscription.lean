import Coordination.Message
/-!
# Subscriptions

A subscription routes the messages of a filter to the handler that asked for them.  A task of its
own forwards what the broker routed to it, one message after another, until it is told to end or
finds that nobody handles the messages any more.  The table of the bus and the task are two things:
a task may have ended while the table still names the subscription.
-/

namespace Coordination

structure Subscription where
  filter : String
  /-- The receiving end; several subscriptions may share one. -/
  handler : String
  /-- Whether the table of the bus names it. -/
  registered : Bool := true
  /-- Whether its task still runs. -/
  forwarding : Bool := true
  /-- Whether its handler can still receive. -/
  listening : Bool := true
  /-- What was routed here and is not forwarded yet, the oldest first. -/
  pending : List RawMessage := []
  /-- What was forwarded and is not handled yet, the oldest first. -/
  inbox : List Message := []

namespace Subscription

/-- Whether a message reaches the task. -/
def accepts (s : Subscription) (raw : RawMessage) : Bool :=
  s.forwarding && Topic.matches s.filter raw.topic

/-- The broker routes a message. -/
def route (s : Subscription) (raw : RawMessage) : Subscription :=
  if s.accepts raw then { s with pending := s.pending ++ [raw] } else s

/-- The task ends; what it did not forward is lost. -/
def halt (s : Subscription) : Subscription := { s with forwarding := false, pending := [] }

/-- The table forgets the subscription, which also tells its task to end. -/
def cancel (s : Subscription) : Subscription := { s with registered := false }

/-- The handler stops receiving; what it did not handle is lost. -/
def deafen (s : Subscription) : Subscription := { s with listening := false, inbox := [] }

/-- The task forwards the next message, or ends because nobody receives it. -/
def forward (s : Subscription) : Subscription :=
  if s.forwarding then
    match s.pending with
    | [] => s
    | raw :: rest =>
      if s.listening then { s with pending := rest, inbox := s.inbox ++ [Message.ofRaw raw] }
      else s.halt
  else s

/-- The task runs until it waits for the next message or ends. -/
def settle (s : Subscription) : Subscription :=
  -- being told to end comes before what is pending
  if !s.registered then s.halt
  else if s.forwarding && !s.pending.isEmpty then
    if s.listening then
      { s with pending := [], inbox := s.inbox ++ s.pending.map Message.ofRaw }
    else s.halt
  else s

end Subscription

end Coordination
