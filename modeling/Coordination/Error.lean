/-!
# Errors

What can go wrong in the coordination layer.  Only a failure to reach the other side is worth
another attempt.
-/

namespace Coordination

/-- A failure reported by a collaborator: the outermost text first, then what caused it. -/
structure Fault where
  /-- The outermost text. -/
  text : String
  /-- The causes, the nearest first. -/
  causes : List String := []
deriving DecidableEq, Repr

namespace Fault

/-- All texts in order. -/
def chain (f : Fault) : String :=
  String.intercalate ": " (f.text :: f.causes)

end Fault

/-- A failure of the coordination layer. -/
inductive Error where
  /-- The other side could not be reached. -/
  | connectivity (detail : String)
  /-- A message broke the rules. -/
  | protocol (detail : String)
  /-- A record does not exist. -/
  | notFound (what : String)
  /-- The unique name of a capability is taken. -/
  | duplicateCapability (name : String)
  /-- A filter has a handler already. -/
  | duplicateSubscription (filter : String)
  /-- The operation needs a connection. -/
  | notConnected
  /-- The configuration cannot be used. -/
  | invalidConfig (detail : String)
  /-- A key or a sealed value cannot be used. -/
  | crypto (detail : String)
  /-- The records could not be consulted. -/
  | records (fault : Fault)
  /-- An agent could not be run. -/
  | agent (fault : Fault)
  /-- The operation was given up on request. -/
  | cancelled
deriving DecidableEq, Repr

namespace Error

def message : Error → String
  | connectivity detail => "connectivity failure: " ++ detail
  | protocol detail => "protocol violation: " ++ detail
  | notFound what => "not found: " ++ what
  | duplicateCapability name => "capability already registered: " ++ name
  | duplicateSubscription filter => "topic already has a handler: " ++ filter
  | notConnected => "not connected"
  | invalidConfig detail => "invalid configuration: " ++ detail
  | crypto detail => "crypto failure: " ++ detail
  | records fault => "records repository failed: " ++ fault.chain
  | agent fault => "agent runtime failed: " ++ fault.chain
  | cancelled => "cancelled"

/-- The name of the kind of an error. -/
def code : Error → String
  | connectivity _ => "CONNECTIVITY"
  | protocol _ => "PROTOCOL"
  | notFound _ => "NOT_FOUND"
  | duplicateCapability _ => "DUPLICATE_CAPABILITY"
  | duplicateSubscription _ => "DUPLICATE_SUBSCRIPTION"
  | notConnected => "NOT_CONNECTED"
  | invalidConfig _ => "INVALID_CONFIG"
  | crypto _ => "CRYPTO"
  | records _ => "RECORDS"
  | agent _ => "AGENT"
  | cancelled => "CANCELLED"

/-- Whether another attempt may succeed. -/
def isRetryable : Error → Bool
  | connectivity _ => true
  | _ => false

/-- The failure of a transport, reported by its outermost text. -/
def ofTransport (fault : Fault) : Error := .connectivity fault.text

/-- The error as a fault of the layer above. -/
def toFault (e : Error) : Fault := ⟨e.message, []⟩

end Error

/-- Whether an operation has a result, and of what kind, can be computed. -/
instance decidableExistsOk {ε α : Type} (x : Except ε α) (p : α → Prop) [DecidablePred p] :
    Decidable (∃ a, x = .ok a ∧ p a) :=
  match x with
  | .ok a => decidable_of_iff (p a) (by simp)
  | .error _ => .isFalse (by simp)

end Coordination
