import Coordination.Bus.Subscription
import Coordination.Clock
import Coordination.Error
import Coordination.Event
/-!
# The message bus

A participant's one connection to the broker.  Each filter has at most one handler.  The bus numbers
its messages in time with a clock of its own.  A connection may be lost without notice: that changes
nothing but the connection itself, so subscriptions outlive it.
-/

namespace Coordination

/-- What a bus asks of the transport beneath it. -/
inductive TransportCall where
  | connect
  | subscribe
  | publish
  | disconnect
deriving DecidableEq, Repr

namespace TransportCall

def all : List TransportCall := [connect, subscribe, publish, disconnect]

def name : TransportCall → String
  | connect => "connect"
  | subscribe => "subscribe"
  | publish => "publish"
  | disconnect => "disconnect"

def ofName? (s : String) : Option TransportCall := all.find? fun c => c.name == s

/-- How a call fails while the transport is down. -/
def fault (c : TransportCall) : Fault := ⟨"transport " ++ c.name ++ " is down", []⟩

end TransportCall

/-- What reached the other side of a transport. -/
inductive TransportRequest where
  /-- A client introduced itself with a token. -/
  | connect (token : String)
  /-- It asked for the messages of a filter. -/
  | subscribe (filter : String)
  /-- It published a message. -/
  | publish (raw : RawMessage)

/-- A bus and the connection beneath it. -/
structure Bus where
  connected : Bool := false
  /-- All subscriptions ever made, the oldest first. -/
  subscriptions : List Subscription := []
  clock : Clock := {}
  /-- The time of day in milliseconds. -/
  now : Nat := 0
  /-- The calls that fail. -/
  down : List TransportCall := []
  /-- What is to be published without waiting, the oldest first. -/
  outgoing : List RawMessage := []
  /-- What the transport accepted and the broker did not take yet, the oldest first. -/
  accepted : List RawMessage := []
  /-- All that reached the other side, the oldest first. -/
  trace : List TransportRequest := []

/-- Why a broker was not entered. -/
structure Refusal where
  fault : Fault
  /-- Whether the broker was reached at all. -/
  reached : Bool

/-- How the broker at an address answers someone who connects with a token. -/
abbrev Admission := String → String → Except Refusal Unit

namespace Bus

def call (b : Bus) (c : TransportCall) : Except Error Unit :=
  if c ∈ b.down then .error (.ofTransport c.fault) else .ok ()

/-! ## Connection -/

/-- Remembers what reached the other side. -/
def note (b : Bus) (rs : List TransportRequest) : Bus := { b with trace := b.trace ++ rs }

/-- Connects to the broker at an address, unless there is a connection already. -/
def connect (b : Bus) (admission : Admission) (token endpoint : String) : Except Error Unit × Bus :=
  if b.connected then (.ok (), b)
  else match b.call .connect with
    | .error e => (.error e, b)
    | .ok () =>
      match admission endpoint token with
      | .error r =>
        (.error (.ofTransport r.fault), b.note (if r.reached then [.connect token] else []))
      | .ok () => (.ok (), { b with connected := true }.note [.connect token])

/-- The connection is lost without notice. -/
def drop (b : Bus) : Bus := { b with connected := false }

def mapSubscriptions (b : Bus) (p : Subscription → Bool) (f : Subscription → Subscription) : Bus :=
  { b with subscriptions := b.subscriptions.map fun s => if p s then f s else s }

/-- The streams of the subscriptions end with the connection; the table stays. -/
def endStreams (b : Bus) : Bus := b.mapSubscriptions (fun _ => true) Subscription.halt

/-- Drops all subscriptions and leaves the broker. -/
def disconnect (b : Bus) : Except Error Unit × Bus :=
  -- the table is cleared whether or not the transport lets go
  let cleared := b.mapSubscriptions Subscription.registered Subscription.cancel
  match b.call .disconnect with
  | .error e => (.error e, cleared)
  | .ok () => (.ok (), { cleared with connected := false })

/-! ## Subscriptions -/

def hasFilter (b : Bus) (filter : String) : Bool :=
  b.subscriptions.any fun s => s.registered && s.filter == filter

def filters (b : Bus) : List String :=
  (b.subscriptions.filter Subscription.registered).map Subscription.filter

/-- Routes the messages of a filter to a handler. -/
def subscribe (b : Bus) (filter handler : String) : Except Error Unit × Bus :=
  if !b.connected then (.error .notConnected, b)
  else if b.hasFilter filter then (.error (.duplicateSubscription filter), b)
  else match b.call .subscribe with
    | .error e => (.error e, b)
    | .ok () =>
      let s : Subscription := { filter, handler }
      (.ok (), { b with subscriptions := b.subscriptions ++ [s] }.note [.subscribe filter])

/-- Ends the subscription of a filter, if there is one. -/
def unsubscribe (b : Bus) (filter : String) : Bus :=
  b.mapSubscriptions (fun s => s.registered && s.filter == filter) Subscription.cancel

/-- A handler stops receiving. -/
def closeHandler (b : Bus) (handler : String) : Bus :=
  b.mapSubscriptions (fun s => s.handler == handler) Subscription.deafen

/-- What waits for a handler. -/
def inbox (b : Bus) (handler : String) : List Message :=
  b.subscriptions.flatMap fun s => if s.handler = handler then s.inbox else []

/-- The handler takes what waits for it. -/
def emptyInbox (b : Bus) (handler : String) : Bus :=
  b.mapSubscriptions (fun s => s.handler == handler) fun s => { s with inbox := [] }

/-! ## Publishing -/

/-- Publishes a message and waits until the transport has accepted it. -/
def publishAsync (b : Bus) (m : Message) : Except Error Unit × Bus :=
  if !b.connected then (.error .notConnected, b)
  else match b.call .publish with
    | .error e => (.error e, b)
    | .ok () => (.ok (), { b with accepted := b.accepted ++ [m.toRaw] }.note [.publish m.toRaw])

/-- Publishes a message without waiting.  A later failure is silent. -/
def publish (b : Bus) (m : Message) : Except Error Unit × Bus :=
  if !b.connected then (.error .notConnected, b)
  else (.ok (), { b with outgoing := b.outgoing ++ [m.toRaw] })

/-- Publishes an event under a new stamp. -/
def publishEvent (b : Bus) (topic : String) (e : Event) : Except Error Unit × Bus :=
  { b with clock := b.clock.advance b.now }.publishAsync
    (.ofData topic (e.toData (b.clock.stamp b.now)))

/-- The transport accepts what was published without waiting, if it can. -/
def flush (b : Bus) : Bus :=
  let sent := if b.connected && !(TransportCall.publish ∈ b.down : Bool) then b.outgoing else []
  { b with outgoing := [], accepted := b.accepted ++ sent }.note (sent.map .publish)

/-- The broker takes what the transport accepted. -/
def handOver (b : Bus) : List RawMessage × Bus := (b.accepted, { b with accepted := [] })

/-! ## Receiving -/

/-- The broker routes a message to the subscriptions that it matches. -/
def route (b : Bus) (raw : RawMessage) : Bus :=
  { b with subscriptions := b.subscriptions.map fun s => s.route raw }

def routeAll (b : Bus) (raws : List RawMessage) : Bus := raws.foldl route b

/-- All tasks run until they wait or end. -/
def settle (b : Bus) : Bus := { b with subscriptions := b.subscriptions.map Subscription.settle }

end Bus

end Coordination
