import Coordination.Topic.Address
/-!
# Topics of a participant

A generator belongs to one authority and one participant, and builds the topics to which that
participant writes and the filters on which it listens.
-/

namespace Coordination

/-- The topics of one participant under one authority. -/
structure Generator where
  /-- The authority whose events these are. -/
  authorityId : String
  /-- The participant. -/
  senderId : String
deriving DecidableEq, Repr

namespace Generator

/-- The segment under which the participant sends: the authority itself uses the placeholder. -/
def senderSegment (g : Generator) : String :=
  if g.senderId = g.authorityId then Topic.absent else g.senderId

/-- The handshake topic of a topic. -/
def connectTo (topic : String) : String := Topic.connectLead ++ topic

/-- The filter for events from any sender to a host and an agent. -/
def subscribeAs (g : Generator) (host agent : Option String) : String :=
  Topic.event Topic.any g.authorityId (Address.segment host) (Address.segment agent)

def publishTo (g : Generator) (host agent : Option String) : String :=
  Topic.event g.senderSegment g.authorityId (Address.segment host) (Address.segment agent)

/-- The inbox of the authority. -/
def subscribeAsAuthority (g : Generator) : String := g.subscribeAs none none

/-- The inbox of this participant as a host. -/
def subscribeAsHost (g : Generator) : String := g.subscribeAs (some g.senderSegment) none

/-- The inbox of this participant as an agent. -/
def subscribeAsAgent (g : Generator) : String := g.subscribeAs none (some g.senderSegment)

def publishToAuthority (g : Generator) : String := g.publishTo none none

def publishToHost (g : Generator) (host : String) : String := g.publishTo (some host) none

def publishToAgent (g : Generator) (agent : String) : String := g.publishTo none (some agent)

end Generator

end Coordination
