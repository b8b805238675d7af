import Coordination.Topic.Address
import Coordination.Json.Reader
import Coordination.Json.Printer
/-!
# Messages

What travels over a broker, and how a handler sees it.  Only a message of the kind `EVENT` whose
payload is the text of an object carries data; anything else is kept without, so that dispatch can
drop it.
-/

namespace Coordination

/-- The kind of a message, which travels beside its payload. -/
inductive MessageKind where
  | event
  | information
  | context
  | unknown
deriving DecidableEq, Repr

namespace MessageKind

def name : MessageKind → String
  | event => "EVENT"
  | information => "INFORMATION"
  | context => "CONTEXT"
  | unknown => "UNKNOWN"

/-- The kind of a name in any case of its ASCII letters. -/
def parse (s : String) : MessageKind :=
  let upper := s.toUpper
  if upper = "EVENT" then event
  else if upper = "INFORMATION" then information
  else if upper = "CONTEXT" then context
  else unknown

end MessageKind

/-- A message as it crosses a transport. -/
structure RawMessage where
  topic : String
  kind : MessageKind
  payload : ByteArray

/-- A message as a handler sees it. -/
structure Message where
  kind : MessageKind
  topic : String
  /-- The sender that the topic names. -/
  senderId : Option String
  /-- The members of the payload. -/
  data : Option Json.Members
deriving Repr

namespace Message

/-- A message that carries an event. -/
def ofData (topic : String) (data : Json.Members) : Message :=
  ⟨.event, topic, Topic.senderOf topic, some data⟩

/-- A message from what a transport delivers. -/
def ofWire (topic : String) (kind : MessageKind) (payload : ByteArray) : Message :=
  ⟨kind, topic, Topic.senderOf topic,
    if kind = .event then Json.Members.ofBytes? payload else none⟩

/-- A message from what a transport delivers. -/
def ofRaw (raw : RawMessage) : Message := ofWire raw.topic raw.kind raw.payload

/-- The bytes that carry the data; there are none without data. -/
def payload (m : Message) : ByteArray :=
  match m.data with
  | some data => data.toBytes
  | none => ByteArray.empty

/-- The message as it crosses a transport. -/
def toRaw (m : Message) : RawMessage := ⟨m.topic, m.kind, m.payload⟩

end Message

end Coordination
