import Coordination.Message
import Coordination.Model.Json
import Coordination.Text.Blank
/-!
# Events

The closed set of events of the protocol, and how they are written as data.  The member `type`
names the event.  A structured member may be embedded or be a text that holds its JSON; writing
always embeds.
-/

namespace Coordination

open Json

/-- Why data is no event. -/
inductive DecodeError where
  /-- The message carries no event data. -/
  | notEvent
  /-- There is no name of an event. -/
  | missingType
  /-- A member is missing. -/
  | missingField (field : String)
  /-- A member has the wrong form. -/
  | invalidField (field : String)
  /-- A member is blank. -/
  | empty (field : String)
deriving DecidableEq, Repr

namespace DecodeError

/-- The text of an error; what is wrong with the form of a member is not told. -/
def message : DecodeError → String
  | notEvent => "message is not an event"
  | missingType => "event has no type"
  | missingField field => "missing field `" ++ field ++ "`"
  | invalidField field => "invalid field `" ++ field ++ "`"
  | empty field => "field `" ++ field ++ "` is empty"

end DecodeError

/-- An event of the protocol.  One of an unknown type is kept, and dispatch ignores it. -/
inductive Event where
  /-- A host announces itself. -/
  | hostConnect (host : HostModel)
  /-- The authority answers with the plugins as it knows them and the agents to run. -/
  | hostWelcome (host : HostModel) (plugins : List Plugin) (agents : List AgentModel)
  /-- An agent is to run on the host. -/
  | agentConnect (agent : AgentModel)
  /-- An agent is to stop. -/
  | agentDisconnect (agentId : String)
  /-- An agent asks for a credential, to be sealed to its key. -/
  | credentialRequest (agentId credentialName : String) (jwk : Jwk)
  /-- The authority answers with a sealed credential. -/
  | credentialResponse (credentialName encryptedCredential : String)
  /-- Anything else. -/
  | unknown (kind : String)
deriving DecidableEq, Repr

namespace Event

/-- The name of the type of an event. -/
def kind : Event → String
  | hostConnect _ => "host_connect"
  | hostWelcome _ _ _ => "host_welcome"
  | agentConnect _ => "agent_connect"
  | agentDisconnect _ => "agent_disconnect"
  | credentialRequest _ _ _ => "credential_request"
  | credentialResponse _ _ => "credential_response"
  | unknown kind => kind

/-! ## Writing -/

/-- The members of an event beside its type and time. -/
def body : Event → List (String × Value)
  | hostConnect host => [("host", host.toValue)]
  | hostWelcome host plugins agents =>
    [("host", host.toValue), ("plugins", Plugin.listToValue plugins),
     ("agents", AgentModel.listToValue agents)]
  | agentConnect agent => [("agent", agent.toValue)]
  | agentDisconnect agentId => [("agent_id", .string agentId)]
  | credentialRequest agentId credentialName jwk =>
    [("agent_id", .string agentId), ("credential_name", .string credentialName),
     ("jwk", jwk.toValue)]
  | credentialResponse credentialName encryptedCredential =>
    [("credential_name", .string credentialName),
     ("encrypted_credential", .string encryptedCredential)]
  | unknown _ => []

/-- The data of an event with the time at which it is sent. -/
def toData (e : Event) (timestamp : String) : Members :=
  Members.ofList ([("type", .string e.kind), ("timestamp", .string timestamp)] ++ e.body)

/-! ## Reading -/

/-- A member that may be absent.  A text is first read as the JSON of what is expected, then taken
as it is. -/
def optionalField {α : Type} (item? : Document → Option α) (data : Members) (key : String) :
    Except DecodeError (Option α) :=
  match data.get? key with
  | none => .ok none
  | some .null => .ok none
  | some value =>
    -- the text may hold the member as JSON of its own
    let nested := match value with
      | .string s => (Document.read? s).bind item?
      | _ => none
    match nested with
    | some a => .ok (some a)
    | none =>
      match item? (.ofValue value) with
      | some a => .ok (some a)
      | none => .error (.invalidField key)

/-- A member that must be present. -/
def field {α : Type} (item? : Document → Option α) (data : Members) (key : String) :
    Except DecodeError α :=
  match optionalField item? data key with
  | .ok (some a) => .ok a
  | .ok none => .error (.missingField key)
  | .error e => .error e

/-- Refuses a blank text. -/
def nonEmpty (name value : String) : Except DecodeError Unit :=
  if Text.isBlank value then .error (.empty name) else .ok ()

/-- The event of a type name, read from data. -/
def decodeAs (kind : String) (data : Members) : Except DecodeError Event :=
  if kind = "host_connect" then do
    let host ← field HostModel.ofDocument? data "host"
    nonEmpty "host.id" host.id
    return .hostConnect host
  else if kind = "host_welcome" then do
    let host ← field HostModel.ofDocument? data "host"
    -- a blank id is reported before anything about the lists
    nonEmpty "host.id" host.id
    let plugins ← optionalField Plugin.listOfDocument? data "plugins"
    let agents ← optionalField AgentModel.listOfDocument? data "agents"
    return .hostWelcome host (plugins.getD []) (agents.getD [])
  else if kind = "agent_connect" then do
    let agent ← field AgentModel.ofDocument? data "agent"
    nonEmpty "agent.id" agent.id
    return .agentConnect agent
  else if kind = "agent_disconnect" then do
    let agentId ← field Document.text? data "agent_id"
    nonEmpty "agent_id" agentId
    return .agentDisconnect agentId
  else if kind = "credential_request" then do
    let agentId ← field Document.text? data "agent_id"
    let credentialName ← field Document.text? data "credential_name"
    nonEmpty "agent_id" agentId
    nonEmpty "credential_name" credentialName
    -- the key is looked at last
    let jwk ← field Jwk.ofDocument? data "jwk"
    return .credentialRequest agentId credentialName jwk
  else if kind = "credential_response" then do
    let credentialName ← field Document.text? data "credential_name"
    nonEmpty "credential_name" credentialName
    let encryptedCredential ← field Document.text? data "encrypted_credential"
    return .credentialResponse credentialName encryptedCredential
  else .ok (.unknown kind)

/-- The event that data writes. -/
def decode (data : Members) : Except DecodeError Event :=
  match data.get? "type" with
  | some (.string kind) => if kind = "" then .error .missingType else decodeAs kind data
  | _ => .error .missingType

end Event

/-- The event that a message carries. -/
def Message.decode (m : Message) : Except DecodeError Event :=
  if m.kind = .event then
    match m.data with
    | some data => Event.decode data
    | none => .error .notEvent
  else .error .notEvent

end Coordination
