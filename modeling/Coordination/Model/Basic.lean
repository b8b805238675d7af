/-!
# Models

What authorities and hosts tell each other about: plugins with their functions, hosts, agents, the
credentials granted to agents, and the public keys to which credentials are sealed.  An id is
absent where a host describes something to which the authority has not yet given one.
-/

namespace Coordination

/-- An input or output of a function. -/
structure Parameter where
  name : String
  /-- The name of the type of its values. -/
  kind : String := ""
  description : String := ""
deriving DecidableEq, Repr

structure Function where
  id : Option String := none
  name : String
  description : String := ""
  inputs : List Parameter := []
  outputs : List Parameter := []
deriving DecidableEq, Repr

/-- A capability of a host. -/
structure Plugin where
  id : Option String := none
  /-- The name under which no other capability is known. -/
  uniqueName : Option String := none
  /-- The name for display. -/
  name : String
  description : String := ""
  functions : List Function := []
deriving DecidableEq, Repr

namespace Plugin

/-- The place of the first plugin in a list with a property. -/
def indexOf? (p : Plugin → Bool) : List Plugin → Option Nat
  | [] => none
  | q :: qs => if p q then some 0 else (indexOf? p qs).map (· + 1)

/-- The place of the plugin that denotes the same capability: by unique name, otherwise by the name
for display. -/
def positionIn? (p : Plugin) (plugins : List Plugin) : Option Nat :=
  let byUnique := match p.uniqueName with
    | some unique => indexOf? (fun q => q.uniqueName == some unique) plugins
    | none => none
  match byUnique with
  | some i => some i
  | none => indexOf? (fun q => q.name == p.name) plugins

/-- The first function of a name. -/
def function? (p : Plugin) (name : String) : Option Function :=
  p.functions.find? fun f => f.name == name

end Plugin

/-- A host as it describes itself. -/
structure HostModel where
  id : String
  name : String := ""
  plugins : List Plugin := []
deriving DecidableEq, Repr

/-- An agent as the authority knows it. -/
structure AgentModel where
  id : String
  name : String := ""
  description : String := ""
  /-- The host that is to run it. -/
  hostId : Option String := none
  /-- Whether it is to run at all. -/
  isEnabled : Bool := true
deriving DecidableEq, Repr

namespace AgentModel

def onHost (a : AgentModel) (hostId : String) : AgentModel := { a with hostId := some hostId }

end AgentModel

/-- A secret of a user that is granted to one agent under a name. -/
structure Credential where
  ownerId : String
  agentId : String
  name : String
  /-- The secret. -/
  value : String
deriving DecidableEq, Repr

/-- A public key in its exchange form; the numbers are texts of the web alphabet. -/
structure Jwk where
  /-- The family of keys. -/
  kty : String
  /-- The modulus. -/
  n : String
  /-- The public exponent. -/
  e : String
  /-- A name of the key. -/
  kid : Option String := none
  /-- The scheme in which the key is used. -/
  alg : Option String := none
deriving DecidableEq, Repr

/-- A host as it stands in the initial records. -/
structure HostSeed where
  id : String
  name : String := ""
  /-- The user to whom the host belongs. -/
  ownerId : Option String := none
  plugins : List Plugin := []
deriving DecidableEq, Repr

/-- The initial records. -/
structure RecordsSeed where
  hosts : List HostSeed := []
  agents : List AgentModel := []
  credentials : List Credential := []
deriving DecidableEq, Repr

structure AccessToken where
  token : String
  /-- The seconds for which it is valid. -/
  expiresIn : Nat := 0
  kind : Option String := none
deriving DecidableEq, Repr

/-- What an authority publishes about its endpoints. -/
structure EndpointDocument where
  tokenEndpoint : Option String := none
  brokerUri : Option String := none
deriving DecidableEq, Repr

/-- A question of the broker: may a client use a topic in the way of a code? -/
structure AccessRequest where
  code : Nat
  client : String := ""
  topic : String
deriving DecidableEq, Repr

end Coordination
