import Coordination.Text.Segments
/-!
# Topics

An event topic has five segments between slashes:

    event/(sender)/(authority)/(host)/(agent)

The segment `-` stands for an absent host or agent, and in the place of the sender for the
authority.  The segment `+` occurs in subscription filters only and matches any one segment.
-/

namespace Coordination

namespace Topic

/-- What every event topic starts with. -/
def eventLead : String := "event/"

/-- What every topic of the connection handshake starts with. -/
def connectLead : String := "connect/"

/-- The segment of an absent host or agent, or of the authority as sender. -/
def absent : String := "-"

/-- The segment of a filter that matches any one segment. -/
def any : String := "+"

/-! ## Matching -/

/-- Whether a segment of a filter accepts a segment of a topic. -/
def segmentMatches (filter segment : String) : Bool :=
  filter == any || filter == segment

/-- Whether two lists have the same length and each segment of the first accepts the one at its
place in the second. -/
def segmentsMatch : List String → List String → Bool
  | [], [] => true
  | f :: fs, t :: ts => segmentMatches f t && segmentsMatch fs ts
  | _, _ => false

/-- Whether a topic is delivered to the subscription of a filter. -/
def «matches» (filter topic : String) : Bool :=
  segmentsMatch (Text.split '/' filter) (Text.split '/' topic)

/-- The topic of four segments. -/
def event (sender authority host agent : String) : String :=
  eventLead ++ sender ++ "/" ++ authority ++ "/" ++ host ++ "/" ++ agent

end Topic

/-! ## Addresses -/

/-- The parts of an event topic. -/
structure Address where
  /-- The segment of the sender. -/
  sender : String
  /-- The authority under which the topic lies. -/
  authority : String
  /-- The host that is addressed, if any. -/
  host : Option String
  /-- The agent that is addressed, if any. -/
  agent : Option String
deriving DecidableEq, Repr

namespace Address

/-- The id that a segment writes. -/
def ofSegment (segment : String) : Option String :=
  if segment = Topic.absent then none else some segment

/-- The segment that writes an id. -/
def segment (id : Option String) : String := id.getD Topic.absent

/-- The parts of four segments none of which is empty. -/
def ofSegments? : List String → Option Address
  | [sender, authority, host, agent] =>
    if sender = "" ∨ authority = "" ∨ host = "" ∨ agent = "" then none
    else some ⟨sender, authority, ofSegment host, ofSegment agent⟩
  | _ => none

/-- The parts of an event topic; any other topic has none. -/
def parse? (topic : String) : Option Address :=
  (Text.afterLead? Topic.eventLead topic).bind fun rest => ofSegments? (Text.split '/' rest)

def render (a : Address) : String :=
  Topic.event a.sender a.authority (segment a.host) (segment a.agent)

/-- The id of the sender: the placeholder stands for the authority, and a wildcard names nobody. -/
def senderId (a : Address) : Option String :=
  if a.sender = Topic.absent then some a.authority
  else if a.sender = Topic.any then none
  else some a.sender

end Address

/-- The id of the sender of a topic, if it is an event topic with a definite sender. -/
def Topic.senderOf (topic : String) : Option String :=
  (Address.parse? topic).bind Address.senderId

end Coordination
