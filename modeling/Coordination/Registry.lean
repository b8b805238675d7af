import Coordination.Model.Basic
import Coordination.Error
/-!
# Capability registry

What a host can do.  A capability describes itself; registering it records a plugin under its unique
name and, where one is given, the instance that serves it.  Reconciling with the list of the
authority takes over ids and adopts plugins that the host did not know; it removes nothing.
-/

namespace Coordination

/-! ## Descriptions -/

/-- A function as a capability describes it. -/
structure FunctionDescriptor where
  name : String
  description : String := ""
  inputs : List Parameter := []
  /-- The kind and description of the result. -/
  output : Option Parameter := none
deriving DecidableEq, Repr

/-- A capability as it describes itself. -/
structure PluginDescriptor where
  name : String
  uniqueName : Option String := none
  description : String := ""
  functions : List FunctionDescriptor := []
deriving DecidableEq, Repr

/-- The name of the single output of every function. -/
def resultName : String := "result"

namespace FunctionDescriptor

/-- The output, a text unless the description says otherwise. -/
def result (d : FunctionDescriptor) : Parameter :=
  d.output.getD { name := resultName, kind := "string" }

def toFunction (d : FunctionDescriptor) : Function :=
  { name := d.name, description := d.description, inputs := d.inputs, outputs := [d.result] }

end FunctionDescriptor

/-- The plugin without ids, under `fallback` where the description gives no unique name. -/
def PluginDescriptor.toPlugin (d : PluginDescriptor) (fallback : String) : Plugin :=
  { uniqueName := some (d.uniqueName.getD fallback), name := d.name, description := d.description,
    functions := d.functions.map FunctionDescriptor.toFunction }

/-- A type of capabilities: its qualified name, parts between dots, and its description. -/
structure Capability where
  typeName : String
  descriptor : PluginDescriptor
deriving DecidableEq, Repr

namespace Capability

/-- The unique name, which is the name of the type unless the description gives one. -/
def uniqueName (c : Capability) : String := c.descriptor.uniqueName.getD c.typeName

def toPlugin (c : Capability) : Plugin := c.descriptor.toPlugin c.typeName

end Capability

/-- An object that serves a capability. -/
structure Instance where
  /-- The name of the type to which it belongs. -/
  typeName : String
  /-- What tells it from others. -/
  tag : String
deriving DecidableEq, Repr

/-! ## The registry -/

/-- The plugins of a host in order of registration, and the instances by unique name. -/
structure Registry where
  plugins : List Plugin := []
  instances : List (String × Instance) := []
deriving DecidableEq, Repr

/-- What a reconciliation did. -/
structure Reconciliation where
  /-- The plugins that were known. -/
  matched : Nat := 0
  /-- The plugins that were new. -/
  adopted : Nat := 0
  /-- The functions that took over an id. -/
  functionsResolved : Nat := 0
deriving DecidableEq, Repr

/-- Counts two reconciliations together. -/
def Reconciliation.add (a b : Reconciliation) : Reconciliation :=
  ⟨a.matched + b.matched, a.adopted + b.adopted, a.functionsResolved + b.functionsResolved⟩

namespace Registry

/-- The first plugin of a unique name. -/
def plugin? (r : Registry) (uniqueName : String) : Option Plugin :=
  r.plugins.find? fun p => p.uniqueName == some uniqueName

/-- The key under which a plugin is registered. -/
def key (p : Plugin) : String := p.uniqueName.getD p.name

/-- Registers a plugin unless its key is taken. -/
def insert (r : Registry) (p : Plugin) : Except Error Registry :=
  if (r.plugin? (key p)).isSome then .error (.duplicateCapability (key p))
  else .ok { r with plugins := r.plugins ++ [p] }

/-- Registers a capability described while running; its display name serves as unique name where
there is no other. -/
def addDescriptor (r : Registry) (d : PluginDescriptor) : Except Error Registry :=
  r.insert (d.toPlugin d.name)

/-- Registers a capability without an instance. -/
def addType (r : Registry) (c : Capability) : Except Error Registry :=
  r.insert c.toPlugin

/-- Registers a capability with the instance that serves it. -/
def addInstance (r : Registry) (c : Capability) (tag : String) : Except Error Registry := do
  let r ← r.insert c.toPlugin
  return { r with instances := (key c.toPlugin, ⟨c.typeName, tag⟩) :: r.instances }

def instance? (r : Registry) (c : Capability) : Option Instance :=
  match r.instances.lookup c.uniqueName with
  | some i => if i.typeName = c.typeName then some i else none
  | none => none

/-! ## Reconciliation -/

def setFunctionId (name id : String) : List Function → List Function
  | [] => []
  | f :: fs =>
    if f.name = name then { f with id := some id } :: fs else f :: setFunctionId name id fs

/-- Takes over the ids of the functions of a canonical plugin; the functions and the number of ids
taken over. -/
def resolveFunctions (locals : List Function) : List Function → List Function × Nat
  | [] => (locals, 0)
  | remote :: remotes =>
    match remote.id with
    | some id =>
      if locals.any fun f => f.name == remote.name then
        let (fs, n) := resolveFunctions (setFunctionId remote.name id locals) remotes
        (fs, n + 1)
      else resolveFunctions locals remotes
    | none => resolveFunctions locals remotes

/-- Takes over the ids of a canonical plugin. -/
def resolvePlugin (here remote : Plugin) : Plugin × Nat :=
  let (functions, n) := resolveFunctions here.functions remote.functions
  ({ here with id := remote.id.or here.id, functions }, n)

/-- Brings one canonical plugin into the list: a match takes over its ids, otherwise it is added. -/
def reconcileOne (plugins : List Plugin) (remote : Plugin) : List Plugin × Reconciliation :=
  match remote.positionIn? plugins with
  | some i =>
    match plugins[i]? with
    | some here =>
      let (resolved, n) := resolvePlugin here remote
      (plugins.set i resolved, { matched := 1, functionsResolved := n })
    | none => (plugins, {})
  | none => (plugins ++ [remote], { adopted := 1 })

/-- Brings canonical plugins into the list, one after another. -/
def reconcileAll (plugins : List Plugin) : List Plugin → List Plugin × Reconciliation
  | [] => (plugins, {})
  | remote :: remotes =>
    let (plugins, first) := reconcileOne plugins remote
    let (plugins, rest) := reconcileAll plugins remotes
    (plugins, first.add rest)

/-- Merges the canonical plugins of the authority into the registry. -/
def reconcile (r : Registry) (canonical : List Plugin) : Registry × Reconciliation :=
  let (plugins, outcome) := reconcileAll r.plugins canonical
  ({ r with plugins }, outcome)

end Registry

end Coordination
