import Coordination.Bus.Basic
import Coordination.Topic.Subject
/-!
# NATS servers

A server is reached at its address and sees what a client asks for: topics and filters as subjects,
and the kind of a message in a header.  It hands a message to the subscription of a subject without
looking at filters again.
-/

namespace Coordination

structure NatsServer where
  uri : String
  /-- Whether the server refuses a token. -/
  refuses : String → Bool := fun _ => false
  /-- Whether the server is away for good. -/
  away : Bool := false

namespace NatsServer

/-- The server admits who reaches it with a token that it does not refuse. -/
def admission (s : NatsServer) : Admission := fun endpoint token =>
  if s.away || endpoint ≠ s.uri then .error ⟨⟨"server not reached", []⟩, false⟩
  else if s.refuses token then .error ⟨⟨"token refused by the server", []⟩, true⟩
  else .ok ()

end NatsServer

/-- What a server sees of a client. -/
inductive NatsFrame where
  /-- The client introduces itself. -/
  | connect (token clientName : String)
  /-- The client subscribes to a subject. -/
  | sub (subject : String)
  /-- The client publishes on a subject. -/
  | pub (subject : String) (headers : List (String × String)) (payload : ByteArray)

namespace NatsFrame

/-- The name under which clients introduce themselves. -/
def clientName : String := "switchboard"

/-- The header that carries the kind of a message. -/
def kindHeader : String := "message.type"

/-- How a server sees a request. -/
def ofRequest : TransportRequest → NatsFrame
  | .connect token => connect token clientName
  | .subscribe filter => sub (Topic.toSubject filter)
  | .publish raw => pub (Topic.toSubject raw.topic) [(kindHeader, raw.kind.name)] raw.payload

end NatsFrame

/-- A message as it comes from a server; without a header it is an event. -/
def RawMessage.ofNats (subject : String) (kind : Option String) (payload : ByteArray) :
    RawMessage :=
  ⟨Topic.ofSubject subject, (kind.map MessageKind.parse).getD .event, payload⟩

/-- The server hands a message to the subscription of a subject, as long as there is a
connection. -/
def Bus.deliverTo (b : Bus) (subject : String) (raw : RawMessage) : Bus :=
  b.mapSubscriptions
    (fun s => b.connected && s.registered && s.forwarding && Topic.toSubject s.filter == subject)
    fun s => { s with pending := s.pending ++ [raw] }

end Coordination
