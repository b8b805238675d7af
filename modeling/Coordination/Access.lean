import Coordination.Topic.Address
import Coordination.Model.Basic
import Coordination.Error
/-!
# Access to topics

The broker asks whether a client may read, write or subscribe to a topic.  Event topics are compared
with masks of four segments that the roles of the client grant:

- `+` accepts any segment,
- `*` accepts any segment but `0`,
- `?` accepts an id whose relationship to the client's host is confirmed by a lookup,
- any other segment accepts itself.

A subscription leaves the sender open, and a write names its true sender.  Handshake topics are
open to everyone.
-/

namespace Coordination

/-- What a client wants to do with a topic. -/
inductive Access where
  | read
  | write
  | subscribe
deriving DecidableEq, Repr

namespace Access

/-- The access of a code of the broker.  The code of reading and writing together is no access. -/
def ofCode? (code : Nat) : Option Access :=
  if code = 1 then some read
  else if code = 2 then some write
  else if code = 4 then some subscribe
  else none

def name : Access → String
  | read => "read"
  | write => "write"
  | subscribe => "subscribe"

def ofName? (name : String) : Option Access :=
  [read, write, subscribe].find? fun a => a.name == name

end Access

/-- What a client is. -/
inductive Role where
  | authority
  | host
deriving DecidableEq, Repr

namespace Role

def name : Role → String
  | authority => "authority"
  | host => "host"

/-- The role of a name in any case of its ASCII letters. -/
def parse? (s : String) : Option Role :=
  let lower := s.toLower
  if lower = "authority" then some authority
  else if lower = "host" then some host
  else none

end Role

/-- The client whose access is in question. -/
structure Principal where
  roles : List Role
  /-- The host as which the client is known. -/
  hostId : Option String
  /-- The authority to which the client belongs. -/
  authorityId : Option String
deriving DecidableEq, Repr

/-- A question about a relationship: may the host act for a source and a target? -/
structure Lookup where
  host : String
  source : Option String
  target : Option String
deriving DecidableEq, Repr

/-- Answers lookups; a lookup may fail. -/
abbrev Verifier := Lookup → Except Fault Bool

namespace Access

/-! ## Masks -/

/-- The segment of a mask that accepts anything but `0`. -/
def anyButAll : String := "*"

/-- The segment that stands for all hosts. -/
def all : String := "0"

/-- The segment of a mask that asks for a lookup. -/
def query : String := "?"

def mask (sender authority host agent : String) : String :=
  sender ++ "/" ++ authority ++ "/" ++ host ++ "/" ++ agent

def authorityMasks (authority : String) : Access → List String
  | read | subscribe => [mask anyButAll authority Topic.absent Topic.absent]
  | write => [mask Topic.absent authority Topic.any Topic.any]

def hostMasks (authority host : String) : Access → List String
  | read | subscribe =>
    [mask Topic.absent authority all Topic.absent,
     mask Topic.absent authority host Topic.absent,
     mask Topic.absent authority host query,
     mask anyButAll authority Topic.absent query]
  | write =>
    [mask host authority Topic.absent Topic.absent,
     mask query authority Topic.absent Topic.absent,
     mask query authority Topic.absent query]

/-- The masks of a client in the order in which they are tried. -/
def masks (p : Principal) (access : Access) : List String :=
  match p.authorityId with
  | none => []
  | some authority =>
    (if p.roles.contains .authority then authorityMasks authority access else []) ++
    (if p.roles.contains .host then
      match p.hostId with
      | some host => hostMasks authority host access
      | none => []
    else [])

/-! ## Comparing -/

/-- Whether a segment of a mask accepts a segment of a topic without a lookup. -/
def segmentMatches (mask segment : String) : Bool :=
  if mask = Topic.any then true
  else if mask = anyButAll then segment ≠ all
  else if mask = query then false
  else mask = segment

/-- Four segments. -/
structure Quad where
  sender : String
  authority : String
  host : String
  agent : String
deriving DecidableEq, Repr

/-- The four segments of a topic or mask; any other number is refused. -/
def Quad.ofText? (s : String) : Option Quad :=
  match Text.split '/' s with
  | [sender, authority, host, agent] => some ⟨sender, authority, host, agent⟩
  | _ => none

/-- What an access asks of the sender: a subscription leaves it open, a write is under the sender of
the mask. -/
def senderAllowed (access : Access) (t m : Quad) : Bool :=
  match access with
  | read => true
  | write => t.sender = m.sender
  | subscribe => t.sender = Topic.any

/-- Whether the segments of a mask accept those of a topic without a lookup. -/
def quadMatches (access : Access) (t m : Quad) : Bool :=
  senderAllowed access t m && segmentMatches m.authority t.authority &&
    segmentMatches m.host t.host && segmentMatches m.agent t.agent

/-- Whether a mask accepts a topic without a lookup. -/
def checkMask (topic mask : String) (access : Access) : Bool :=
  match Quad.ofText? topic, Quad.ofText? mask with
  | some t, some m => quadMatches access t m
  | _, _ => false

/-! ## Lookups -/

/-- Whether a segment of a mask is a query or accepts the segment of a topic. -/
def queryOrMatches (mask segment : String) : Bool :=
  mask = query || segmentMatches mask segment

/-- The source of a lookup, where the access allows one at all: a subscription has none, and a
write is for another agent than its target. -/
def lookupSource? (access : Access) (t m : Quad) (source target : Option String) :
    Option (Option String) :=
  match access with
  | subscribe => if t.sender = Topic.any then some none else none
  | write =>
    if source.isSome ∧ source = target then none
    else if source.isNone ∧ m.sender ≠ t.sender then none
    else some source
  | read => some source

/-- The lookup that decides whether the segments of a mask with queries accept those of a topic. -/
def quadLookup? (access : Access) (host : String) (t m : Quad) : Option Lookup :=
  if queryOrMatches m.authority t.authority && queryOrMatches m.host t.host &&
      queryOrMatches m.agent t.agent then
    let source := if m.sender = query then some t.sender else none
    let target := if m.agent = query then some t.agent else none
    -- a query is never about an absent participant
    if source = some Topic.absent ∨ target = some Topic.absent then none
    else (lookupSource? access t m source target).map fun source => ⟨host, source, target⟩
  else none

/-- The lookup that decides whether a mask accepts a topic; a mask without a query, or a client that
is no host, has none. -/
def lookup? (p : Principal) (topic mask : String) (access : Access) : Option Lookup :=
  if mask.toList.contains '?' then
    match p.hostId, Quad.ofText? topic, Quad.ofText? mask with
    | some host, some t, some m => quadLookup? access host t m
    | _, _, _ => none
  else none

/-! ## Decision -/

/-- Whether access is granted, and the lookups that were made to decide it. -/
structure Decision where
  allowed : Bool
  lookups : List Lookup := []
deriving DecidableEq, Repr

/-- A lookup that fails counts as a refusal. -/
def confirmed (verify : Verifier) (l : Lookup) : Bool :=
  match verify l with
  | .ok answer => answer
  | .error _ => false

/-- Tries masks in order until one accepts the topic. -/
def tryMasks (verify : Verifier) (p : Principal) (topic : String) (access : Access) :
    List String → Decision
  | [] => ⟨false, []⟩
  | m :: ms =>
    if checkMask topic m access then ⟨true, []⟩
    else match lookup? p topic m access with
      | none => tryMasks verify p topic access ms
      | some l =>
        if confirmed verify l then ⟨true, [l]⟩
        else
          let rest := tryMasks verify p topic access ms
          ⟨rest.allowed, l :: rest.lookups⟩

/-- Decides on a request of a client. -/
def check (verify : Verifier) (request : AccessRequest) (p : Principal) : Decision :=
  -- whoever may connect at all may use the topics for it
  if Text.startsWith Topic.connectLead request.topic then ⟨true, []⟩
  else
    let topic := (Text.afterLead? Topic.eventLead request.topic).getD request.topic
    match ofCode? request.code with
    | none => ⟨false, []⟩
    | some access =>
      if topic = "" then ⟨false, []⟩ else tryMasks verify p topic access (masks p access)

end Access

end Coordination
