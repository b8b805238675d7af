import Coordination.Credential.Client
/-!
# Agents

The usual agent: it knows the capabilities of its host and can fetch its credentials from the
authority.
-/

namespace Coordination

structure Agent where
  id : String
  name : String
  /-- The capabilities of the host when the agent was created. -/
  plugins : List Plugin
  credentials : CredentialClient

namespace Agent

/-- The agent that a model describes, with a key pair of its own. -/
def create (model : AgentModel) (authorityId : String) (plugins : List Plugin) (keys : KeyPair)
    (config : ClientConfig) : Agent :=
  { id := model.id, name := model.name, plugins
    credentials := { topics := ⟨authorityId, model.id⟩, keys, config } }

/-- Begins to listen for credentials. -/
def connect (a : Agent) (b : Bus) : Except Fault Unit × Agent × Bus :=
  match a.credentials.start b with
  | (.ok (), credentials, b) => (.ok (), { a with credentials }, b)
  | (.error e, credentials, b) => (.error e.toFault, { a with credentials }, b)

/-- Listens no more. -/
def disconnect (a : Agent) (b : Bus) : Agent × Bus :=
  let (credentials, b) := a.credentials.stop b
  ({ a with credentials }, b)

/-- Fetches a credential while nothing else happens. -/
def get (a : Agent) (b : Bus) (name : String) : Except Error String × Agent × Bus :=
  let (result, credentials, b) := a.credentials.get b name
  (result, { a with credentials }, b)

end Agent

end Coordination
