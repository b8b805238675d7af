import Coordination.Model.Json
import Coordination.Error
import Coordination.Json.Reader
/-!
# Records

What the authority consults while it handles events: hosts with their owners and canonical plugins,
agents, and credentials.  Plugins that a host reports for the first time are recorded with fresh
ids, and nothing is ever taken off the list of a host.
-/

namespace Coordination

/-! ## Tables -/

/-- A host and the user to whom it belongs. -/
structure HostEntry where
  host : HostModel
  ownerId : Option String
deriving DecidableEq, Repr

/-- The records of an authority. -/
structure Records where
  /-- The hosts, no two with the same id. -/
  hosts : List HostEntry := []
  /-- The agents, no two with the same id. -/
  agents : List AgentModel := []
  /-- The credentials in the order in which they were added. -/
  credentials : List Credential := []
  /-- The ids that are drawn for what is new, by number. -/
  newId : Nat → String
  /-- How many ids were drawn. -/
  issued : Nat := 0

namespace Records

/-- Replaces the entry of a host, or adds one. -/
def putHost (e : HostEntry) : List HostEntry → List HostEntry
  | [] => [e]
  | h :: hs => if h.host.id = e.host.id then e :: hs else h :: putHost e hs

/-- Replaces the entry of an agent, or adds one. -/
def putAgent (a : AgentModel) : List AgentModel → List AgentModel
  | [] => [a]
  | b :: bs => if b.id = a.id then a :: bs else b :: putAgent a bs

def entry? (r : Records) (hostId : String) : Option HostEntry :=
  r.hosts.find? fun e => e.host.id == hostId

def agent? (r : Records) (agentId : String) : Option AgentModel :=
  r.agents.find? fun a => a.id == agentId

/-- Adds a host without plugins, in place of an earlier one of the same id. -/
def addHost (r : Records) (id name : String) (ownerId : Option String) : Records :=
  { r with hosts := putHost ⟨{ id, name }, ownerId⟩ r.hosts }

/-- Adds an agent, in place of an earlier one of the same id. -/
def addAgent (r : Records) (a : AgentModel) : Records :=
  { r with agents := putAgent a r.agents }

def removeAgent (r : Records) (agentId : String) : Records :=
  { r with agents := r.agents.filter fun a => a.id != agentId }

def addCredential (r : Records) (c : Credential) : Records :=
  { r with credentials := r.credentials ++ [c] }

def ofSeed (newId : Nat → String) (s : RecordsSeed) : Records :=
  { newId
    hosts := s.hosts.foldl
      (fun hs h => putHost ⟨{ id := h.id, name := h.name, plugins := h.plugins }, h.ownerId⟩ hs) []
    agents := s.agents.foldl (fun as a => putAgent a as) []
    credentials := s.credentials }

/-! ## Queries -/

def host? (r : Records) (hostId : String) : Option HostModel :=
  (r.entry? hostId).map HostEntry.host

/-- The canonical plugins of a host; an unknown one has none. -/
def pluginsOf (r : Records) (hostId : String) : List Plugin :=
  match r.host? hostId with
  | some h => h.plugins
  | none => []

/-- Puts an agent in front of the first one with a greater id. -/
def insertById (a : AgentModel) : List AgentModel → List AgentModel
  | [] => [a]
  | b :: bs => if b.id < a.id then b :: insertById a bs else a :: b :: bs

def sortById (as : List AgentModel) : List AgentModel := as.foldr insertById []

def agentsOf (r : Records) (hostId : String) : List AgentModel :=
  sortById (r.agents.filter fun a => a.isEnabled && a.hostId == some hostId)

/-- The host that the record of an agent names. -/
def hostOfAgent? (r : Records) (agentId : String) : Option String :=
  (r.agent? agentId).bind AgentModel.hostId

/-- The owner of the host that the record of an agent names. -/
def ownerOfAgent? (r : Records) (agentId : String) : Option String :=
  (r.hostOfAgent? agentId).bind fun hostId => (r.entry? hostId).bind HostEntry.ownerId

/-- The first credential of a name that the owner of the agent's host granted to the agent. -/
def credential? (r : Records) (agentId name : String) : Option String :=
  (r.ownerOfAgent? agentId).bind fun owner =>
    (r.credentials.find? fun c =>
      c.ownerId == owner && c.agentId == agentId && c.name == name).map Credential.value

/-! ## Recording plugins -/

section

variable (newId : Nat → String)

/-- Functions with fresh ids from a number on. -/
def assignFunctionIds (serial : Nat) : List Function → List Function
  | [] => []
  | f :: fs => { f with id := some (newId serial) } :: assignFunctionIds (serial + 1) fs

/-- The canonical copy of a reported plugin: every id is fresh, and the display name serves as
unique name where there is no other. -/
def canonical (serial : Nat) (p : Plugin) : Plugin :=
  { p with
    id := some (newId serial)
    uniqueName := p.uniqueName.or (some p.name)
    functions := assignFunctionIds newId (serial + 1) p.functions }

/-- Adds the reported plugins that have no match, one after another; the list and the number of the
next id. -/
def recordAll (serial : Nat) (known : List Plugin) : List Plugin → List Plugin × Nat
  | [] => (known, serial)
  | p :: ps =>
    -- a plugin matches what was recorded a moment ago as well
    match p.positionIn? known with
    | some _ => recordAll serial known ps
    | none => recordAll (serial + 1 + p.functions.length) (known ++ [canonical newId serial p]) ps

end

/-- Records the plugins that a host reports and gives its canonical list. -/
def sync (r : Records) (hostId : String) (reported : List Plugin) :
    Except Fault (Records × List Plugin) :=
  match r.entry? hostId with
  | none => .error ⟨"unknown host " ++ hostId, []⟩
  | some e =>
    let (plugins, issued) := recordAll r.newId r.issued e.host.plugins reported
    .ok ({ r with hosts := putHost { e with host := { e.host with plugins } } r.hosts, issued },
      plugins)

end Records

/-- Why initial records could not be loaded. -/
inductive SeedError where
  /-- There is no such file. -/
  | reading (path : String)
  /-- The file holds no records. -/
  | parsing (path : String)
deriving DecidableEq, Repr

def SeedError.message : SeedError → String
  | reading path => "reading records seed " ++ path
  | parsing path => "parsing records seed " ++ path

def SeedError.cause : SeedError → String
  | reading _ => "No such file or directory (os error 2)"
  | parsing _ => "malformed records"

def Records.load (newId : Nat → String) (path : String) (file : Option String) :
    Except SeedError Records :=
  match file with
  | none => .error (.reading path)
  | some text =>
    match (Json.Document.read? text).bind RecordsSeed.ofDocument? with
    | some seed => .ok (.ofSeed newId seed)
    | none => .error (.parsing path)

end Coordination
