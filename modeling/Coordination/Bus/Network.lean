import Coordination.Bus.Basic
/-!
# Brokers and networks

A broker within one process keeps every message and hands each to all buses on it.  A network is a
broker and the buses that use it, by name.
-/

namespace Coordination

structure Broker where
  /-- All messages published so far, the oldest first. -/
  history : List RawMessage := []
  /-- Whether nobody can connect. -/
  refusing : Bool := false

namespace Broker

/-- Whether a token is enough to connect; a broker within the process has no address. -/
def admission (b : Broker) : Admission := fun _ token =>
  if b.refusing then .error ⟨⟨"connection refused", []⟩, false⟩
  else if token = "" then .error ⟨⟨"authorization violation", []⟩, true⟩
  else .ok ()

def record (b : Broker) (raws : List RawMessage) : Broker :=
  { b with history := b.history ++ raws }

def publishedTo (b : Broker) (filter : String) : List RawMessage :=
  b.history.filter fun raw => Topic.matches filter raw.topic

end Broker

/-- A broker and the buses on it, no two of one name. -/
structure Network where
  broker : Broker := {}
  buses : List (String × Bus) := []

namespace Network

/-- The bus of a name; a new one where there was none. -/
def bus (n : Network) (name : String) : Bus := (n.buses.lookup name).getD {}

def setBus (name : String) (b : Bus) : List (String × Bus) → List (String × Bus)
  | [] => [(name, b)]
  | (other, c) :: rest =>
    if other = name then (name, b) :: rest else (other, c) :: setBus name b rest

def put (n : Network) (name : String) (b : Bus) : Network :=
  { n with buses := setBus name b n.buses }

def mapBuses (n : Network) (f : Bus → Bus) : Network :=
  { n with buses := n.buses.map fun (name, b) => (name, f b) }

def publish (n : Network) (raws : List RawMessage) : Network :=
  { n with broker := n.broker.record raws }.mapBuses fun b => b.routeAll raws

/-- The broker takes what the buses published. -/
def collect (n : Network) : Network :=
  let flushed := n.mapBuses Bus.flush
  (flushed.mapBuses fun b => b.handOver.2).publish
    (flushed.buses.flatMap fun (_, b) => b.handOver.1)

/-- Everything that was published reaches its handlers. -/
def settle (n : Network) : Network := n.collect.mapBuses Bus.settle

/-- What waits for a handler, on whatever bus. -/
def inbox (n : Network) (handler : String) : List Message :=
  n.buses.flatMap fun (_, b) => b.inbox handler

end Network

end Coordination
