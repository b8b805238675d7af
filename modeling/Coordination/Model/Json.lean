import Coordination.Model.Basic
import Coordination.Json.Document
import Coordination.Text.Quoted
/-!
# Models as JSON

Every model is an object with one member a field; an absent optional field is left out.  In
reading, fields with a value of their own may be missing.
-/

namespace Coordination

open Json Json.Document

/-! ## Writing -/

def Parameter.toValue (p : Parameter) : Value :=
  .ofMembers [("description", .string p.description), ("name", .string p.name),
    ("type", .string p.kind)]

def Function.toValue (f : Function) : Value :=
  .ofMembers (Value.member? "id" f.id ++
    [("name", .string f.name), ("description", .string f.description),
     ("inputs", .array (f.inputs.map Parameter.toValue)),
     ("outputs", .array (f.outputs.map Parameter.toValue))])

def Plugin.toValue (p : Plugin) : Value :=
  .ofMembers (Value.member? "id" p.id ++ Value.member? "unique_name" p.uniqueName ++
    [("name", .string p.name), ("description", .string p.description),
     ("functions", .array (p.functions.map Function.toValue))])

def Plugin.listToValue (ps : List Plugin) : Value := .array (ps.map Plugin.toValue)

def HostModel.toValue (h : HostModel) : Value :=
  .ofMembers [("id", .string h.id), ("name", .string h.name),
    ("plugins", Plugin.listToValue h.plugins)]

def AgentModel.toValue (a : AgentModel) : Value :=
  .ofMembers ([("id", .string a.id), ("name", .string a.name),
    ("description", .string a.description)] ++ Value.member? "host_id" a.hostId ++
    [("is_enabled", .bool a.isEnabled)])

def AgentModel.listToValue (as : List AgentModel) : Value := .array (as.map AgentModel.toValue)

def Credential.toValue (c : Credential) : Value :=
  .ofMembers [("owner_id", .string c.ownerId), ("agent_id", .string c.agentId),
    ("name", .string c.name), ("value", .string c.value)]

def Jwk.toValue (k : Jwk) : Value :=
  .ofMembers ([("kty", .string k.kty), ("n", .string k.n), ("e", .string k.e)] ++
    Value.member? "kid" k.kid ++ Value.member? "alg" k.alg)

def HostSeed.toValue (h : HostSeed) : Value :=
  .ofMembers ([("id", .string h.id), ("name", .string h.name)] ++
    Value.member? "owner_id" h.ownerId ++ [("plugins", Plugin.listToValue h.plugins)])

def RecordsSeed.toValue (s : RecordsSeed) : Value :=
  .ofMembers [("hosts", .array (s.hosts.map HostSeed.toValue)),
    ("agents", AgentModel.listToValue s.agents),
    ("credentials", .array (s.credentials.map Credential.toValue))]

def AccessToken.toValue (t : AccessToken) : Value :=
  .ofMembers ([("access_token", .string t.token), ("expires_in", .ofNat t.expiresIn)] ++
    Value.member? "token_type" t.kind)

/-! ## Reading -/

def Parameter.ofDocument? (doc : Document) : Option Parameter := do
  let fields ← doc.fields? ["name", "type", "description"]
  let name ← required fields "name" text?
  let kind ← orElse fields "type" text? ""
  let description ← orElse fields "description" text? ""
  return { name, kind, description }

def Function.ofDocument? (doc : Document) : Option Function := do
  let fields ← doc.fields? ["id", "name", "description", "inputs", "outputs"]
  let id ← optional fields "id" text?
  let name ← required fields "name" text?
  let description ← orElse fields "description" text? ""
  let inputs ← orElse fields "inputs" (listOf? Parameter.ofDocument?) []
  let outputs ← orElse fields "outputs" (listOf? Parameter.ofDocument?) []
  return { id, name, description, inputs, outputs }

def Plugin.ofDocument? (doc : Document) : Option Plugin := do
  let fields ← doc.fields? ["id", "unique_name", "name", "description", "functions"]
  let id ← optional fields "id" text?
  let uniqueName ← optional fields "unique_name" text?
  let name ← required fields "name" text?
  let description ← orElse fields "description" text? ""
  let functions ← orElse fields "functions" (listOf? Function.ofDocument?) []
  return { id, uniqueName, name, description, functions }

def Plugin.listOfDocument? : Document → Option (List Plugin) := listOf? Plugin.ofDocument?

def HostModel.ofDocument? (doc : Document) : Option HostModel := do
  let fields ← doc.fields? ["id", "name", "plugins"]
  let id ← required fields "id" text?
  let name ← orElse fields "name" text? ""
  let plugins ← orElse fields "plugins" Plugin.listOfDocument? []
  return { id, name, plugins }

def AgentModel.ofDocument? (doc : Document) : Option AgentModel := do
  let fields ← doc.fields? ["id", "name", "description", "host_id", "is_enabled"]
  let id ← required fields "id" text?
  let name ← orElse fields "name" text? ""
  let description ← orElse fields "description" text? ""
  let hostId ← optional fields "host_id" text?
  let isEnabled ← orElse fields "is_enabled" bool? true
  return { id, name, description, hostId, isEnabled }

def AgentModel.listOfDocument? : Document → Option (List AgentModel) :=
  listOf? AgentModel.ofDocument?

def Credential.ofDocument? (doc : Document) : Option Credential := do
  let fields ← doc.fields? ["owner_id", "agent_id", "name", "value"]
  let ownerId ← required fields "owner_id" text?
  let agentId ← required fields "agent_id" text?
  let name ← required fields "name" text?
  let value ← required fields "value" text?
  return { ownerId, agentId, name, value }

def Jwk.ofDocument? (doc : Document) : Option Jwk := do
  let fields ← doc.fields? ["kty", "n", "e", "kid", "alg"]
  let kty ← required fields "kty" text?
  let n ← required fields "n" text?
  let e ← required fields "e" text?
  let kid ← optional fields "kid" text?
  let alg ← optional fields "alg" text?
  return { kty, n, e, kid, alg }

def HostSeed.ofDocument? (doc : Document) : Option HostSeed := do
  let fields ← doc.fields? ["id", "name", "owner_id", "plugins"]
  let id ← required fields "id" text?
  let name ← orElse fields "name" text? ""
  let ownerId ← optional fields "owner_id" text?
  let plugins ← orElse fields "plugins" Plugin.listOfDocument? []
  return { id, name, ownerId, plugins }

def RecordsSeed.ofDocument? (doc : Document) : Option RecordsSeed := do
  let fields ← doc.fields? ["hosts", "agents", "credentials"]
  let hosts ← orElse fields "hosts" (listOf? HostSeed.ofDocument?) []
  let agents ← orElse fields "agents" AgentModel.listOfDocument? []
  let credentials ← orElse fields "credentials" (listOf? Credential.ofDocument?) []
  return { hosts, agents, credentials }

def AccessToken.ofDocument? (doc : Document) : Option AccessToken := do
  let fields ← doc.fields? ["access_token", "expires_in", "token_type"]
  let token ← required fields "access_token" text?
  let expiresIn ← orElse fields "expires_in" (natUpTo? (UInt64.size - 1)) 0
  let kind ← optional fields "token_type" text?
  return { token, expiresIn, kind }

/-- Reads what an authority publishes about its endpoints. -/
def EndpointDocument.ofDocument? (doc : Document) : Option EndpointDocument := do
  let fields ← doc.fields? ["token_endpoint", "broker_uri"]
  let tokenEndpoint ← optional fields "token_endpoint" text?
  let brokerUri ← optional fields "broker_uri" text?
  return { tokenEndpoint, brokerUri }

/-- Reads a question of the broker. -/
def AccessRequest.ofDocument? (doc : Document) : Option AccessRequest := do
  let fields ← doc.fields? ["acc", "clientid", "topic"]
  let code ← required fields "acc" (natUpTo? 255)
  let client ← orElse fields "clientid" text? ""
  let topic ← required fields "topic" text?
  return { code, client, topic }

/-! ## Descriptions for logs -/

/-- A credential for a log: every field but the secret. -/
def Credential.describe (c : Credential) : String :=
  "Credential \x7b owner_id: " ++ Text.Quoted.quote c.ownerId ++ ", agent_id: " ++
    Text.Quoted.quote c.agentId ++ ", name: " ++ Text.Quoted.quote c.name ++
    ", value: \"<redacted>\" \x7d"

end Coordination
