import Coordination.Bus.Network
import Coordination.Credential.Client
/-!
# A client at work

A client with a bus of its own on a broker.  Settling a session lets everything happen that needs
neither time nor anyone else: requests reach the broker, answers reach the client, and calls that
were answered return.
-/

namespace Coordination

/-- A client, its bus and the broker. -/
structure ClientSession where
  client : CredentialClient
  bus : Bus := {}
  broker : Broker := {}
  /-- What the client published so far, the oldest first. -/
  sent : List RawMessage := []

namespace ClientSession

/-- Someone else publishes a message. -/
def publish (s : ClientSession) (raw : RawMessage) : ClientSession :=
  { s with broker := s.broker.record [raw], bus := s.bus.route raw }

/-- Applies an operation of the client that may use the bus. -/
def update (s : ClientSession) (p : CredentialClient × Bus) : ClientSession :=
  { s with client := p.1, bus := p.2 }

/-- What the bus published reaches the broker, and what the broker routed reaches the client. -/
def exchange (s : ClientSession) : ClientSession :=
  let (raws, bus) := s.bus.flush.handOver
  let (client, bus) := s.client.receive (bus.routeAll raws).settle
  { client, bus, broker := s.broker.record raws, sent := s.sent ++ raws }

/-- Everything happens that can. -/
def settle (s : ClientSession) : ClientSession :=
  let exchanged := (s.update (s.client.settle s.bus)).exchange
  exchanged.update (exchanged.client.settle exchanged.bus)

/-- The calls that have not returned. -/
def waiting (s : ClientSession) : Nat := (s.client.calls.filter fun k => !k.isDone).length

end ClientSession

end Coordination
