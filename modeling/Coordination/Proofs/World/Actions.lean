import Coordination.World
import Coordination.Proofs.World.Agreement
/-!
# One thing after another

The participants of an installation act one after another: the records change and the authority
tells the hosts, a host listens and announces itself, the broker takes a message, a task forwards
one, and a participant handles one.  Between any two such actions anything else may happen.
-/

namespace Coordination

/-! ## What a participant does -/

namespace Host

/-- The host listens on its inbox, if it can. -/
def listen (h : Host) : Host := { h with bus := (h.bus.subscribe h.inbox h.inbox).2 }

def report (h : Host) : Host :=
  { h with bus := (h.bus.publishEvent h.topics.publishToAuthority (.hostConnect h.snapshot)).2 }

/-- To enter the broker is to listen and then to announce oneself. -/
theorem announce_eq_report {h : Host} (hlisten : (h.bus.subscribe h.inbox h.inbox).1 = .ok ()) :
    (h.announce false).2 = { h.listen.report with dispatching := true } := by
  unfold announce listen report
  rcases hsubscribe : h.bus.subscribe h.inbox h.inbox with ⟨result, bus⟩
  rw [hsubscribe] at hlisten
  cases hlisten
  rfl

/-- The host handles the first message that waits for it. -/
def serveFirst (h : Host) : Host :=
  match h.bus.inbox h.inbox with
  | [] => h
  | m :: _ => { h with bus := h.bus.dropFirst h.inbox }.handle m

end Host

namespace Authority

/-- The authority handles the first message that waits for it. -/
def serveFirst (a : Authority) (r : Repository) : Authority × Repository :=
  match a.bus.inbox a.inbox with
  | [] => (a, r)
  | m :: _ => { a with bus := a.bus.dropFirst a.inbox }.handle r m

end Authority

/-- The transport gives its first message away. -/
def Bus.dropAccepted (b : Bus) : Bus := { b with accepted := b.accepted.tail }

namespace World

/-! ## Actions -/

inductive Action where
  /-- The record of an agent changes. -/
  | record (c : Change)
  /-- The authority is told of a change of the records, and tells the hosts. -/
  | tell (c : Change)
  /-- A host listens. -/
  | listen (label : String)
  /-- A host announces itself. -/
  | report (label : String)
  /-- The broker takes a message of the authority. -/
  | collectAuthority
  /-- The broker takes a message of a host. -/
  | collectHost (label : String)
  /-- The task of the authority forwards a message. -/
  | forwardAuthority
  /-- The tasks of one handler on the bus of a host forward a message. -/
  | forwardHost (label handler : String)
  /-- The authority handles a message. -/
  | serveAuthority
  /-- A host handles a message. -/
  | serveHost (label : String)

def updateHost (w : World) (label : String) (f : Host → Host) : World :=
  match w.host? label with
  | none => w
  | some h => w.setHost label (f h)

def updateAuthority (w : World) (f : Authority → Authority) : World :=
  { w with authority := w.authority.map f }

/-- What the transport of the authority accepted. -/
def accepted (w : World) : List RawMessage := (w.authority.map fun a => a.bus.accepted).getD []

/-- The world after an action.  What cannot happen changes nothing. -/
def act (w : World) : Action → World
  | .record c =>
    { w with repository := { w.repository with records := c.record w.repository.records } }
  | .tell c => w.updateAuthority fun a => c.tell a w.repository
  | .listen label => w.updateHost label Host.listen
  | .report label => w.updateHost label Host.report
  | .collectAuthority =>
    (w.updateAuthority fun a => { a with bus := a.bus.dropAccepted }).publish (w.accepted.take 1)
  | .collectHost label =>
    (w.updateHost label fun h => { h with bus := h.bus.dropAccepted }).publish
      (((w.host? label).map fun h => h.bus.accepted.take 1).getD [])
  | .forwardAuthority => w.updateAuthority fun a => { a with bus := a.bus.forward a.inbox }
  | .forwardHost label handler =>
    w.updateHost label fun h => { h with bus := h.bus.forward handler }
  | .serveAuthority =>
    match w.authority with
    | none => w
    | some a =>
      let (a, repository) := a.serveFirst w.repository
      { w with authority := some a, repository }
  | .serveHost label => w.updateHost label Host.serveFirst

def actAll (w : World) (actions : List Action) : World := actions.foldl act w

/-- No message is in flight: none waits to be published, to be routed, to be forwarded or to be
handled. -/
def Quiet (w : World) : Prop :=
  ∀ b ∈ w.buses, b.outgoing = [] ∧ b.accepted = [] ∧
    ∀ s ∈ b.subscriptions, s.pending = [] ∧ s.inbox = []

instance (w : World) : Decidable w.Quiet := by
  unfold Quiet
  infer_instance

/-- Whether actions are allowed one after another.  Every change concerns an agent that can be told
to a host and satisfies `p` in the records that it finds, the authority is told of it next, and no
other change comes in between; `due` is the change that the authority is still to be told of. -/
def Allows (authorityId : String) (p : Records → Change → Prop) (w : World) (due : Option Change) :
    List Action → Prop
  | [] => due = none
  | .record c :: actions =>
    (due = none ∧ Topic.NamesAgent authorityId c.agent.id ∧ p w.repository.records c) ∧
      (w.act (.record c)).Allows authorityId p (some c) actions
  | .tell c :: actions =>
    due = some c ∧ (w.act (.tell c)).Allows authorityId p none actions
  | action :: actions => (w.act action).Allows authorityId p due actions

/-! ## Hosts by label -/

variable {w : World} {label other : String}

theorem lookup_cons (l : String) (h : Host) (hosts : List (String × Host)) :
    ((l, h) :: hosts).lookup other = if other = l then some h else hosts.lookup other := by
  rw [List.lookup_cons]
  by_cases heq : other = l
  · rw [if_pos heq, beq_iff_eq.mpr heq]
  · rw [if_neg heq, beq_eq_false_iff_ne.mpr heq]

theorem lookup_putHost (label : String) (h : Host) (hosts : List (String × Host)) :
    (putHost label h hosts).lookup other =
      if other = label then some h else hosts.lookup other := by
  -- on the list: the entry is replaced where it stands, or added at its end
  induction hosts with
  | nil => exact lookup_cons label h []
  | cons entry rest ih =>
    obtain ⟨l, h'⟩ := entry
    unfold putHost
    split
    · next hl =>
      subst hl
      rw [lookup_cons, lookup_cons]
      split <;> rfl
    · next hl =>
      rw [lookup_cons, lookup_cons, ih]
      by_cases hother : other = l
      · subst hother
        rw [if_pos rfl, if_pos rfl, if_neg hl]
      · rw [if_neg hother, if_neg hother]

theorem host?_updateHost (w : World) (label : String) (f : Host → Host) (other : String) :
    (w.updateHost label f).host? other =
      (w.host? other).map fun h => if other = label then f h else h := by
  unfold updateHost
  cases hhost : w.host? label with
  | none =>
    by_cases heq : other = label
    · subst heq
      simp [hhost]
    · simp [heq]
  | some h =>
    show (putHost label (f h) w.hosts).lookup other = _
    rw [lookup_putHost]
    by_cases heq : other = label
    · subst heq
      simp [hhost]
    · simp [heq, host?]

theorem host?_mapHosts (w : World) (f : Host → Host) (label : String) :
    (w.mapHosts f).host? label = (w.host? label).map f := by
  unfold mapHosts host?
  induction w.hosts with
  | nil => rfl
  | cons entry rest ih =>
    obtain ⟨l, h⟩ := entry
    rw [List.map_cons, lookup_cons, lookup_cons, ih]
    split <;> rfl

theorem host?_publish (w : World) (raws : List RawMessage) (label : String) :
    (w.publish raws).host? label =
      (w.host? label).map fun h => { h with bus := h.bus.routeAll raws } := by
  let kept : World := { w with broker := w.broker.record raws }
  exact kept.host?_mapHosts (fun h => { h with bus := h.bus.routeAll raws }) label

end World

end Coordination
