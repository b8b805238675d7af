import Coordination.Records
/-!
# The records as the authority consults them

Every question to the records may fail as a whole.
-/

namespace Coordination

/-- A question to the records. -/
inductive Query where
  | getHost
  | getAgents
  | sync
  | getCredential
  | hostForAgent
deriving DecidableEq, Repr

namespace Query

def all : List Query := [getHost, getAgents, sync, getCredential, hostForAgent]

def name : Query → String
  | getHost => "get_host"
  | getAgents => "get_agents"
  | sync => "sync"
  | getCredential => "get_credential"
  | hostForAgent => "host_for_agent"

def ofName? (s : String) : Option Query := all.find? fun q => q.name == s

/-- How a question fails. -/
def fault (q : Query) : Fault := ⟨q.name ++ " is down", []⟩

end Query

/-- Records and the questions that fail. -/
structure Repository where
  records : Records
  down : List Query := []

namespace Repository

/-- Asks a question. -/
def ask {α : Type} (r : Repository) (q : Query) (answer : Except Fault α) : Except Error α :=
  if q ∈ r.down then .error (.records q.fault) else answer.mapError .records

def host? (r : Repository) (hostId : String) : Except Error (Option HostModel) :=
  r.ask .getHost (.ok (r.records.host? hostId))

def agentsOf (r : Repository) (hostId : String) : Except Error (List AgentModel) :=
  r.ask .getAgents (.ok (r.records.agentsOf hostId))

def sync (r : Repository) (hostId : String) (reported : List Plugin) :
    Except Error (Repository × List Plugin) :=
  r.ask .sync ((r.records.sync hostId reported).map fun (records, ps) => ({ r with records }, ps))

/-- The credential of a name that an agent may use. -/
def credential? (r : Repository) (agentId name : String) : Except Error (Option String) :=
  r.ask .getCredential (.ok (r.records.credential? agentId name))

/-- The host that the record of an agent names. -/
def hostOfAgent? (r : Repository) (agentId : String) : Except Error (Option String) :=
  r.ask .hostForAgent (.ok (r.records.hostOfAgent? agentId))

end Repository

end Coordination
