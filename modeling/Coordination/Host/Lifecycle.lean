import Coordination.Host.Basic
/-!
# Connecting and stopping a host

A host connects in one attempt: it finds the endpoints, gets a token, enters the broker, serves its
inbox and announces itself.  An attempt that fails leaves nothing behind but the agents that were
live before.  A host that is to stay up tries again and again until it is cancelled, and then looks
from time to time whether it is still up.
-/

namespace Coordination.Host

/-- Shuts the dispatch loop down; messages that wait in the inbox are lost. -/
def stopDispatch (h : Host) : Host :=
  if h.dispatching then { h with bus := h.bus.closeHandler h.inbox, dispatching := false } else h

/-- Leaves the broker. -/
def teardown (h : Host) : Host :=
  let h := h.stopDispatch
  { h with bus := (h.bus.unsubscribe h.inbox).disconnect.2 }

/-- Serves the inbox and announces the host. -/
def announce (h : Host) (givenUp : Bool) : Except Error Unit × Host :=
  match h.bus.subscribe h.inbox h.inbox with
  | (.error e, bus) => (.error e, { h with bus })
  | (.ok (), bus) =>
    -- the dispatch loop of someone who was asked to give up ends at once
    let bus := if givenUp then bus.closeHandler h.inbox else bus
    let (result, bus) := bus.publishEvent h.topics.publishToAuthority (.hostConnect h.snapshot)
    (result, { h with bus, dispatching := true })

/-- Enters the broker with a token. -/
def enter (h : Host) (admission : Admission) (token : String) (givenUp : Bool) :
    Except Error Unit × Host :=
  match h.discovery.brokerUri? with
  | none => (.error (.connectivity "no broker uri"), h)
  | some endpoint =>
    match h.bus.connect admission token endpoint with
    | (.error e, bus) => (.error e, { h with bus })
    | (.ok (), bus) => { h with bus }.announce givenUp

/-- One attempt to connect. -/
def attempt (h : Host) (admission : Admission) (w : Web) : Except Error Unit × Host × Web :=
  match h.discovery.locate w with
  | (.error e, discovery, w) => (.error e, { h with discovery }, w)
  | (.ok endpoints, discovery, w) =>
    let h := { h with discovery }
    match Token.request w endpoints.tokenEndpoint h.id h.secret Token.connectScope with
    | (.error e, w) => (.error e, h, w)
    | (.ok token, w) =>
      let (result, h) := h.enter admission token.token w.cancelled
      (result, h, w)

/-- Connects, unless connected. -/
def connect (h : Host) (admission : Admission) (w : Web) : Except Error Unit × Host × Web :=
  if h.isConnected then (.ok (), h, w)
  else
    match { h with state := h.state.replace .connecting }.attempt admission w with
    | (.ok (), h, w) => (.ok (), { h with state := h.state.replace .connected }, w)
    | (.error e, h, w) =>
      let h := h.teardown
      (.error e, { h with state := h.state.replace .disconnected }, w)

/-- Connects and tries again after every failure until the host is cancelled; whether it is by the
time it has waited for the next attempt is given.  None if the host is still trying after a number
of attempts. -/
def start (cancelled : Host → Web → Bool) (admission : Admission) :
    Nat → Host → Web → Option (Except Error Unit) × Host × Web
  | 0, h, w => (none, h, w)
  | tries + 1, h, w =>
    if h.isConnected then (some (.ok ()), h, w)
    else
      match h.connect admission w with
      | (.ok (), h, w) => (some (.ok ()), h, w)
      | (.error .cancelled, h, w) => (some (.error .cancelled), h, w)
      | (.error _, h, w) =>
        if cancelled h w then (some (.error .cancelled), h, w)
        else start cancelled admission tries h w

def endAgents (h : Host) : Host :=
  h.agents.foldl (fun h r => (h.endAgent r).2) { h with agents := [] }

def stop (h : Host) : Host :=
  if h.state.value = .disconnected then h
  else
    -- no command may arrive any more while the agents are stopped
    let h := h.stopDispatch.endAgents.teardown
    { h with state := h.state.replace .disconnected }

/-- How a run ends whose start has ended so; none if it goes on.  Being cancelled is no failure. -/
def runAfter : Except Error Unit → Option (Except Error Unit)
  | .ok () => none
  | .error .cancelled => some (.ok ())
  | .error e => some (.error e)

/-- One round of a run after the start: the host stops if it is cancelled, and otherwise looks
whether it is still up.  None if the run goes on. -/
def watch (h : Host) (cancelled : Bool) : Option (Except Error Unit) × Host :=
  if cancelled then (some (.ok ()), h.stop)
  else (if h.isConnected then none else some (.ok ()), h)

end Coordination.Host
