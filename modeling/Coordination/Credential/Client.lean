import Coordination.Bus.Basic
import Coordination.Credential.Sealing
import Coordination.Topic.Generator
/-!
# The credential client

An agent asks the authority for a credential and waits for the answer, which comes sealed to the
agent's key on the agent's topic.  A call takes a place among those who wait for the same name; the
first of them sends the request, and a call that has waited too long sends it again until it has
made all its attempts.  An answer is kept for the life of the client and given to all who wait.

A call goes through the stages `lookup`, `enlist`, `send`, `wait` and `withdraw`; other calls and
answers may come between any two of its steps.  An answer takes two steps: the value is kept, and
then the calls are told.
-/

namespace Coordination

/-- How long a call waits for an answer, and how often it asks. -/
structure ClientConfig where
  /-- The milliseconds that one attempt waits. -/
  timeout : Nat := 10000
  attempts : Nat := 3
deriving DecidableEq, Repr

/-- A place among those who wait for a value. -/
structure Ticket where
  /-- The call to which it belongs. -/
  call : Nat
  /-- The attempt of the call for which it was taken. -/
  attempt : Nat
deriving DecidableEq, Repr

/-- Where a call stands. -/
inductive Stage where
  /-- It is about to look whether the value is known. -/
  | lookup
  /-- It is about to take a place. -/
  | enlist (attempt : Nat)
  /-- It is about to send a request; a value may have come already. -/
  | send (attempt : Nat) (letter : Option String)
  /-- It waits; a value may have come already. -/
  | wait (attempt : Nat) (letter : Option String)
  /-- It is about to give up its place, because the request failed or because it waited too long. -/
  | withdraw (attempt : Nat) (failure : Option Error)
  /-- It has returned. -/
  | done (result : Except Error String)
deriving Repr

/-- A call for a credential. -/
structure Call where
  id : Nat
  /-- The name of the credential. -/
  name : String
  stage : Stage := .lookup
  /-- When it has waited too long. -/
  deadline : Nat := 0
deriving Repr

namespace Call

def isDone (c : Call) : Bool :=
  match c.stage with
  | .done _ => true
  | _ => false

def result? (c : Call) : Option (Except Error String) :=
  match c.stage with
  | .done r => some r
  | _ => none

/-- The attempt for which the call holds a place, if it holds one. -/
def place? (c : Call) : Option Nat :=
  match c.stage with
  | .send k _ => some k
  | .wait k _ => some k
  | _ => none

/-- The call after a value came for one of its attempts. -/
def deliver (c : Call) (attempt : Nat) (value : String) : Call :=
  match c.stage with
  | .send k none => if k = attempt then { c with stage := .send k (some value) } else c
  | .wait k none => if k = attempt then { c with stage := .wait k (some value) } else c
  | _ => c

end Call

/-- The client of one agent. -/
structure CredentialClient where
  topics : Generator
  keys : KeyPair
  config : ClientConfig := {}
  /-- The values received so far. -/
  cache : List (String × String) := []
  /-- The places by the name that is asked for. -/
  pending : List (String × List Ticket) := []
  /-- The calls, the oldest first. -/
  calls : List Call := []
  /-- The number of calls made so far. -/
  made : Nat := 0
  /-- Values that are kept but of which the calls are not told yet. -/
  untold : List (String × String) := []
  /-- Whether the client listens on the topic of its agent. -/
  listening : Bool := false
  /-- The time in milliseconds. -/
  now : Nat := 0

namespace CredentialClient

def agentId (c : CredentialClient) : String := c.topics.senderId

/-- The filter of the answers, which is also the name of the receiving end. -/
def filter (c : CredentialClient) : String := c.topics.subscribeAsAgent

/-! ## Tables -/

/-- A table with a new value for a key. -/
def setKey {α : Type} (key : String) (a : α) : List (String × α) → List (String × α)
  | [] => [(key, a)]
  | (k, b) :: rest => if k = key then (key, a) :: rest else (k, b) :: setKey key a rest

/-- Whether the value of a name is known. -/
def isCached (c : CredentialClient) (name : String) : Bool := (c.cache.lookup name).isSome

/-- The places of those who wait for a name. -/
def waiters (c : CredentialClient) (name : String) : List Ticket :=
  (c.pending.lookup name).getD []

/-- The client with other places for a name; a name without places is taken off the table. -/
def setWaiters (c : CredentialClient) (name : String) (ts : List Ticket) : CredentialClient :=
  { c with pending :=
      if ts = [] then c.pending.filter fun (k, _) => k != name else setKey name ts c.pending }

def call? (c : CredentialClient) (id : Nat) : Option Call := c.calls.find? fun k => k.id == id

def setCall (c : CredentialClient) (k : Call) : CredentialClient :=
  { c with calls := c.calls.map fun j => if j.id = k.id then k else j }

/-- Whether someone still waits at a place. -/
def isOpen (c : CredentialClient) (t : Ticket) : Bool :=
  match c.call? t.call with
  | some k => k.place? == some t.attempt
  | none => false

/-- Takes away the places at which nobody waits any more. -/
def prune (c : CredentialClient) (name : String) : CredentialClient :=
  c.setWaiters name ((c.waiters name).filter c.isOpen)

/-! ## Listening -/

/-- Listens on the topic of the agent, unless it does already. -/
def start (c : CredentialClient) (b : Bus) : Except Error Unit × CredentialClient × Bus :=
  if c.listening then (.ok (), c, b)
  else match b.subscribe c.filter c.filter with
    | (.ok (), b) => (.ok (), { c with listening := true }, b)
    | (.error e, b) => (.error e, c, b)

/-- Listens no more. -/
def stop (c : CredentialClient) (b : Bus) : CredentialClient × Bus :=
  if c.listening then
    ({ c with listening := false }, (b.closeHandler c.filter).unsubscribe c.filter)
  else (c, b)

/-! ## Answers -/

/-- The name and value that a message answers with: only the authority answers, and only what is
sealed to the key of the agent can be opened. -/
def opened? (c : CredentialClient) (m : Message) : Option (String × String) :=
  if m.senderId = some c.topics.authorityId then
    match m.decode with
    | .ok (.credentialResponse name ciphertext) =>
      match c.keys.decrypt ciphertext with
      | .ok value => some (name, value)
      | .error _ => none
    | _ => none
  else none

def keep (c : CredentialClient) (m : Message) : CredentialClient :=
  match c.opened? m with
  | some (name, value) =>
    { c with cache := setKey name value c.cache, untold := c.untold ++ [(name, value)] }
  | none => c

def deliver (value : String) (calls : List Call) (t : Ticket) : List Call :=
  calls.map fun k => if k.id = t.call then k.deliver t.attempt value else k

/-- Tells a value to all who wait for its name. -/
def resolve (c : CredentialClient) (name value : String) : CredentialClient :=
  { c.setWaiters name [] with calls := (c.waiters name).foldl (deliver value) c.calls }

/-- Tells the oldest value that was not told. -/
def tell (c : CredentialClient) : CredentialClient :=
  match c.untold with
  | [] => c
  | (name, value) :: rest => { c with untold := rest }.resolve name value

/-- Handles a message from beginning to end. -/
def handle (c : CredentialClient) (m : Message) : CredentialClient :=
  let kept := c.keep m
  kept.untold.foldl (fun c _ => c.tell) kept

/-! ## Calls -/

/-- A new call; its number is `made`. -/
def ask (c : CredentialClient) (name : String) : CredentialClient :=
  { c with calls := c.calls ++ [{ id := c.made, name }], made := c.made + 1 }

def abandon (c : CredentialClient) (id : Nat) : CredentialClient :=
  { c with calls := c.calls.filter fun k => k.id != id }

/-- Why a call for a name returns without a value. -/
def unanswered (name : String) : Error := .notFound ("credential " ++ name)

/-- The stage before an attempt, or the end if all were made. -/
def attemptOr (c : CredentialClient) (name : String) (attempt : Nat) : Stage :=
  if attempt ≤ c.config.attempts then .enlist attempt else .done (.error (unanswered name))

def beginWait (c : CredentialClient) (k : Call) (attempt : Nat) (letter : Option String) : Call :=
  { k with stage := .wait attempt letter, deadline := c.now + c.config.timeout }

/-- Asks the authority for a credential. -/
def request (c : CredentialClient) (b : Bus) (name : String) : Except Error Unit × Bus :=
  b.publishEvent c.topics.publishToAuthority (.credentialRequest c.agentId name c.keys.jwk)

/-- The next step of a call; none while it has to wait or has returned. -/
def step (c : CredentialClient) (b : Bus) (k : Call) : Option (CredentialClient × Bus) :=
  match k.stage with
  | .lookup =>
    let stage := match c.cache.lookup k.name with
      | some value => .done (.ok value)
      | none => c.attemptOr k.name 1
    some (c.setCall { k with stage }, b)
  | .enlist attempt =>
    -- only the first open call of a name asks; a second attempt always does
    let others := (c.waiters k.name).filter c.isOpen
    let k' := if others.isEmpty || attempt > 1 then { k with stage := .send attempt none }
      else c.beginWait k attempt none
    some ((c.setWaiters k.name (others ++ [⟨k.id, attempt⟩])).setCall k', b)
  | .send attempt letter =>
    match c.request b k.name with
    | (.ok (), b) => some (c.setCall (c.beginWait k attempt letter), b)
    | (.error e, b) => some (c.setCall { k with stage := .withdraw attempt (some e) }, b)
  | .wait _ (some value) => some (c.setCall { k with stage := .done (.ok value) }, b)
  | .wait attempt none =>
    -- a call that was struck off the list without an answer was given up
    if ⟨k.id, attempt⟩ ∉ c.waiters k.name then
      some (c.setCall { k with stage := .done (.error .cancelled) }, b)
    else if k.deadline ≤ c.now then
      some (c.setCall { k with stage := .withdraw attempt none }, b)
    else none
  | .withdraw attempt failure =>
    let stage := match failure with
      | some e => .done (.error e)
      | none => c.attemptOr k.name (attempt + 1)
    some ((c.prune k.name).setCall { k with stage }, b)
  | .done _ => none

/-- A call runs for a number of steps, or until it has to wait or returns. -/
def runCall (id : Nat) : Nat → CredentialClient × Bus → CredentialClient × Bus
  | 0, s => s
  | fuel + 1, (c, b) =>
    match (c.call? id).bind (c.step b) with
    | some s => runCall id fuel s
    | none => (c, b)

/-- More steps than a call makes without waiting. -/
def stepsOfCall (c : CredentialClient) : Nat := 4 * c.config.attempts + 6

/-- Puts a call in front of the first one with a later deadline. -/
def insertByDeadline (k : Call) : List Call → List Call
  | [] => [k]
  | j :: js => if j.deadline ≤ k.deadline then j :: insertByDeadline k js else k :: j :: js

/-- Calls in the order in which their time runs out. -/
def byDeadline (ks : List Call) : List Call := ks.foldl (fun js k => insertByDeadline k js) []

/-- All calls run until they have to wait or return, those whose time runs out first in front. -/
def settle (c : CredentialClient) (b : Bus) : CredentialClient × Bus :=
  (byDeadline c.calls).foldl (fun s k => runCall k.id c.stepsOfCall s) (c, b)

def pass (c : CredentialClient) (millis : Nat) : CredentialClient :=
  { c with now := c.now + millis }

/-- A call from beginning to end while nothing else happens. -/
def get (c : CredentialClient) (b : Bus) (name : String) :
    Except Error String × CredentialClient × Bus :=
  let id := c.made
  -- each round lets the time of one attempt run out
  let round (s : CredentialClient × Bus) : CredentialClient × Bus :=
    runCall id s.1.stepsOfCall (s.1.pass s.1.config.timeout, s.2)
  let (c, b) := (List.replicate c.config.attempts ()).foldl (fun s _ => round s)
    (runCall id c.stepsOfCall (c.ask name, b))
  let result := ((c.call? id).bind Call.result?).getD (.error (unanswered name))
  (result, c.abandon id, b)

/-- The messages that wait on the bus are handled, and the calls go on. -/
def receive (c : CredentialClient) (b : Bus) : CredentialClient × Bus :=
  ((b.inbox c.filter).foldl handle c, b.emptyInbox c.filter)

end CredentialClient

end Coordination
