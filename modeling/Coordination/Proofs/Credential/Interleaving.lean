import Coordination.Proofs.Bus.Table
import Coordination.Proofs.Credential.Places
import Coordination.Proofs.Credential.Sealing
import Coordination.Proofs.Event.RoundTrip
import Mathlib.Logic.Relation
/-!
# Many calls of one client

Any number of calls use one client, and between any two steps of a call anything else may happen:
other calls take steps or are given up, messages are handled, time passes, and the bus changes in
whatever way, so that a request may fail.  A message is handled in two actions, since other things
may happen between the moment when its value is kept and the moment when the calls are told.

Every value that a call returns came from the authority, a value that comes is given to all who wait
for it, and nobody waits in the table once all calls have returned.
-/

namespace Coordination

/-- The messages that reached the other side, the oldest first. -/
def Bus.published (b : Bus) : List RawMessage :=
  b.trace.filterMap fun request =>
    match request with
    | .publish raw => some raw
    | _ => none

namespace CredentialClient

/-- A message answers with a value for a name: the authority sent it, and it holds the value sealed
to the key of the client. -/
def Answers (c : CredentialClient) (m : Message) (name value : String) : Prop :=
  m.senderId = some c.topics.authorityId ∧
    ∃ ciphertext, m.decode = .ok (.credentialResponse name ciphertext) ∧
      c.keys.decrypt ciphertext = .ok value

/-- Tells the calls one of the values that they were not told yet. -/
def tellAt (c : CredentialClient) (place : Nat) : Option CredentialClient :=
  c.untold[place]?.map fun entry =>
    { c with untold := c.untold.eraseIdx place }.resolve entry.1 entry.2

/-- The call is about to take its first place, and nobody waits for its name. -/
def opens (c : CredentialClient) (k : Call) : Bool :=
  match k.stage with
  | .enlist attempt => decide (attempt ≤ 1) && ((c.waiters k.name).filter c.isOpen).isEmpty
  | _ => false

end CredentialClient

/-- A client that any number of calls use, with its bus and with what happened so far. -/
structure Interleaving where
  client : CredentialClient
  bus : Bus
  /-- The messages that were handled, the oldest first. -/
  handled : List Message := []
  /-- What the client published, the oldest first. -/
  sent : List RawMessage := []
  /-- The calls that were given up from outside. -/
  dropped : List Nat := []
  /-- The names of the calls that found nobody waiting when they took their first place. -/
  openers : List String := []

namespace Interleaving

inductive Action where
  /-- A new call for a name. -/
  | ask (name : String)
  /-- A call takes its next step. -/
  | call (id : Nat)
  /-- A call in progress is given up from outside. -/
  | drop (id : Nat)
  /-- The client keeps what a message brings. -/
  | keep (m : Message)
  /-- The calls are told one of the values that were kept. -/
  | tell (place : Nat)
  /-- Time passes. -/
  | pass (millis : Nat)
  /-- The bus changes. -/
  | rewire (bus : Bus)

/-- A client before its first call. -/
def start (topics : Generator) (keys : KeyPair) (config : ClientConfig) (bus : Bus) :
    Interleaving :=
  { client := { topics, keys, config }, bus }

/-- Something happens, if it can. -/
def act (s : Interleaving) : Action → Option Interleaving
  | .ask name => some { s with client := s.client.ask name }
  | .call id =>
    (s.client.call? id).bind fun k =>
      (s.client.step s.bus k).map fun next =>
        { s with
          client := next.1
          bus := next.2
          sent := s.sent ++ next.2.published.drop s.bus.published.length
          openers := s.openers ++ if s.client.opens k then [k.name] else [] }
  | .drop id =>
    (s.client.call? id).bind fun k =>
      if k.isDone then none
      else some { s with client := s.client.abandon id, dropped := s.dropped ++ [id] }
  | .keep m => some { s with client := s.client.keep m, handled := s.handled ++ [m] }
  | .tell place => (s.client.tellAt place).map fun client => { s with client }
  | .pass millis => some { s with client := s.client.pass millis }
  | .rewire bus => some { s with bus }

def Leads : Interleaving → Interleaving → Prop :=
  Relation.ReflTransGen fun s s' => ∃ action, s.act action = some s'

def run (s : Interleaving) : List Action → Option Interleaving
  | [] => some s
  | action :: actions => (s.act action).bind fun next => next.run actions

/-- A message that was handled answered with the value. -/
def Answered (s : Interleaving) (name value : String) : Prop :=
  ∃ m ∈ s.handled, s.client.Answers m name value

end Interleaving

/-! ## Where values come from -/

namespace CredentialClient

variable {c c' : CredentialClient} {b b' : Bus} {k k' : Call} {m : Message} {name value : String}
  {P Q : String → String → Prop}

theorem opened?_eq_some : c.opened? m = some (name, value) ↔ c.Answers m name value := by
  unfold opened? Answers
  constructor
  · intro h
    -- the three looks of the client: the sender, the message and the ciphertext
    split at h
    · next hsender =>
      split at h
      · next name' ciphertext hdecode =>
        split at h
        · next value' hopen =>
          cases h
          exact ⟨hsender, ciphertext, hdecode, hopen⟩
        · cases h
      · cases h
    · cases h
  · rintro ⟨hsender, ciphertext, hdecode, hopen⟩
    rw [if_pos hsender, hdecode]
    dsimp only
    rw [hopen]

/-- The client keeps the value of an answer, and the calls are to be told. -/
theorem keep_of_answers (h : c.Answers m name value) :
    c.keep m = { c with
      cache := setKey name value c.cache, untold := c.untold ++ [(name, value)] } := by
  unfold keep
  rw [opened?_eq_some.mpr h]

/-- Every value that the client has, for itself or for a call, satisfies a condition. -/
structure Backed (P : String → String → Prop) (c : CredentialClient) : Prop where
  cached : ∀ name value, c.cache.lookup name = some value → P name value
  untold : ∀ entry ∈ c.untold, P entry.1 entry.2
  held : ∀ k ∈ c.calls, ∀ value, k.Holds value → P k.name value

/-- No call fails because its place was struck off the table. -/
def Unstruck (c : CredentialClient) : Prop := ∀ k ∈ c.calls, ¬ k.Fails .cancelled

theorem Backed.mono (h : c.Backed P) (hPQ : ∀ name value, P name value → Q name value) :
    c.Backed Q where
  cached name value hname := hPQ _ _ (h.cached name value hname)
  untold entry hentry := hPQ _ _ (h.untold entry hentry)
  held k hk value hvalue := hPQ _ _ (h.held k hk value hvalue)

theorem Backed.ask (h : c.Backed P) (name : String) : (c.ask name).Backed P := by
  refine ⟨h.cached, h.untold, fun k hk value hvalue => ?_⟩
  rcases List.mem_append.mp hk with hk | hk
  · exact h.held k hk value hvalue
  · rw [List.mem_singleton.mp hk] at hvalue
    simp [Call.Holds] at hvalue

theorem Unstruck.ask (h : c.Unstruck) (name : String) : (c.ask name).Unstruck := by
  intro k hk hfails
  rcases List.mem_append.mp hk with hk | hk
  · exact h k hk hfails
  · rw [List.mem_singleton.mp hk] at hfails
    simp [Call.Fails] at hfails

theorem Backed.abandon (h : c.Backed P) (id : Nat) : (c.abandon id).Backed P :=
  ⟨h.cached, h.untold, fun k hk => h.held k (List.mem_filter.mp hk).1⟩

theorem Unstruck.abandon (h : c.Unstruck) (id : Nat) : (c.abandon id).Unstruck :=
  fun k hk => h k (List.mem_filter.mp hk).1

/-- A message brings at most one value, and that for one name. -/
theorem Backed.keep (h : c.Backed P) (hm : ∀ name value, c.Answers m name value → P name value) :
    (c.keep m).Backed P := by
  unfold CredentialClient.keep
  split
  · next name value hopened =>
    have hP := hm name value (opened?_eq_some.mp hopened)
    refine ⟨fun other value' hlookup => ?_, fun entry hentry => ?_, h.held⟩
    · replace hlookup : (setKey name value c.cache).lookup other = some value' := hlookup
      -- a later value of the same name replaces the one before
      by_cases hother : other = name
      · rw [hother, lookup_setKey] at hlookup
        cases hlookup
        exact hother ▸ hP
      · rw [lookup_setKey_of_ne hother] at hlookup
        exact h.cached other value' hlookup
    · rcases List.mem_append.mp hentry with hentry | hentry
      · exact h.untold entry hentry
      · rw [List.mem_singleton.mp hentry]
        exact hP
  · exact h

/-- A message changes nothing but what is kept. -/
theorem keep_frame (c : CredentialClient) (m : Message) :
    c.keep m = { c with cache := (c.keep m).cache, untold := (c.keep m).untold } := by
  unfold keep
  split <;> rfl

/-- What is told was kept before. -/
theorem tellAt_cases {place : Nat} (h : c.tellAt place = some c') :
    ∃ name value, c.untold[place]? = some (name, value) ∧
      c' = { c with untold := c.untold.eraseIdx place }.resolve name value := by
  unfold tellAt at h
  obtain ⟨⟨name, value⟩, hentry, rfl⟩ := Option.map_eq_some_iff.mp h
  exact ⟨name, value, hentry, rfl⟩

theorem Seated.eraseUntold (h : c.Seated) (place : Nat) :
    { c with untold := c.untold.eraseIdx place }.Seated := h.congr rfl rfl rfl

theorem Backed.tellAt (h : c.Backed P) (hseated : c.Seated) {place : Nat}
    (htell : c.tellAt place = some c') : c'.Backed P := by
  obtain ⟨name, value, hentry, rfl⟩ := tellAt_cases htell
  refine ⟨h.cached, fun entry he => h.untold entry (List.mem_of_mem_eraseIdx he), ?_⟩
  intro k hk v hv
  rw [(hseated.eraseUntold place).calls_resolve] at hk
  obtain ⟨j, hj, rfl⟩ := List.mem_map.mp hk
  by_cases hname : j.name = name
  · rw [if_pos hname] at hv ⊢
    rw [j.give_name]
    rcases Call.holds_give hv with hv | rfl
    · exact h.held j hj v hv
    · exact hname ▸ h.untold _ (List.mem_of_getElem? hentry)
  · rw [if_neg hname] at hv ⊢
    exact h.held j hj v hv

theorem Unstruck.tellAt (h : c.Unstruck) (hseated : c.Seated) {place : Nat}
    (htell : c.tellAt place = some c') : c'.Unstruck := by
  obtain ⟨name, value, -, rfl⟩ := tellAt_cases htell
  intro k hk hfails
  rw [(hseated.eraseUntold place).calls_resolve] at hk
  obtain ⟨j, hj, rfl⟩ := List.mem_map.mp hk
  refine h j hj ?_
  by_cases hname : j.name = name
  · rw [if_pos hname] at hfails
    exact Call.fails_give hfails
  · rwa [if_neg hname] at hfails

theorem Backed.stride (h : c.Backed P) (hk : k ∈ c.calls) (hstride : c.Stride b k k' c' b') :
    c'.Backed P := by
  have hframe := hstride.frame
  refine ⟨?_, ?_, fun j hj value hvalue => ?_⟩
  · rw [hframe]
    exact h.cached
  · rw [hframe]
    exact h.untold
  · rw [hstride.calls_eq, mem_setCall hk hstride.id_eq] at hj
    rcases hj with rfl | ⟨hj, -⟩
    · rw [hstride.name_eq]
      exact (hstride.holds hvalue).elim (h.held k hk value) fun hit => h.cached k.name value hit.2
    · exact h.held j hj value hvalue

/-- A request fails only because the transport is not reached, and then nothing was published. -/
theorem request_error {e : Error} (h : c.request b name = (.error e, b')) :
    (e = .notConnected ∨ ∃ detail, e = .connectivity detail) ∧ b'.published = b.published := by
  unfold request at h
  rcases b.publishEvent_cases _ _ with ⟨e', he, herror, htrace⟩ | ⟨hok, -⟩
  · rw [h] at herror htrace
    cases herror
    unfold Bus.published
    rw [htrace]
    exact ⟨he, rfl⟩
  · rw [h] at hok
    cases hok

/-- A call that waits is on the table, so no step finds it struck off. -/
theorem Unstruck.stride (h : c.Unstruck) (hseated : c.Seated) (hk : k ∈ c.calls)
    (hstride : c.Stride b k k' c' b') : c'.Unstruck := by
  intro j hj hfails
  rw [hstride.calls_eq, mem_setCall hk hstride.id_eq] at hj
  rcases hj with rfl | ⟨hj, -⟩
  · rcases hstride.fails hfails with hfails | heq | ⟨b', hrequest⟩ | ⟨attempt, stage, hgone⟩
    · exact h k hk hfails
    · cases heq
    · rcases (request_error hrequest).1 with heq | ⟨detail, heq⟩ <;> cases heq
    · exact hgone (hseated.placed k hk attempt (.inr stage))
  · exact h j hj hfails

end CredentialClient

namespace Interleaving

open CredentialClient (Seated Stride)

variable {s s' : Interleaving} {action : Action} {topics : Generator} {keys : KeyPair}
  {config : ClientConfig} {bus : Bus} {k k' j : Call} {id : Nat} {name value : String}

/-! ## One action -/

/-- A step of a call is one of those that a call can take. -/
theorem stride_of_act_call (hact : s.act (.call id) = some s') :
    ∃ k ∈ s.client.calls, k.id = id ∧ ∃ k' client bus, s.client.Stride s.bus k k' client bus ∧
      s' = { s with
        client, bus
        sent := s.sent ++ bus.published.drop s.bus.published.length
        openers := s.openers ++ if s.client.opens k then [k.name] else [] } := by
  obtain ⟨k, hcall, hstep⟩ := Option.bind_eq_some_iff.mp hact
  obtain ⟨next, hnext, rfl⟩ := Option.map_eq_some_iff.mp hstep
  obtain ⟨hk, hid⟩ := CredentialClient.mem_of_call? hcall
  obtain ⟨k', hstride⟩ := Stride.of_step hnext
  exact ⟨k, hk, hid, k', next.1, next.2, hstride, rfl⟩

/-- Only a call in progress is given up. -/
theorem act_drop_cases (hact : s.act (.drop id) = some s') :
    ∃ k, s.client.call? id = some k ∧ k.isDone = false ∧
      s' = { s with client := s.client.abandon id, dropped := s.dropped ++ [id] } := by
  obtain ⟨k, hcall, hdrop⟩ := Option.bind_eq_some_iff.mp hact
  split at hdrop
  · cases hdrop
  · next hgoing => exact ⟨k, hcall, Bool.eq_false_iff.mpr hgoing, (Option.some.inj hdrop).symm⟩

theorem act_tell_cases {place : Nat} (hact : s.act (.tell place) = some s') :
    ∃ client, s.client.tellAt place = some client ∧ s' = { s with client } := by
  obtain ⟨client, htell, rfl⟩ := Option.map_eq_some_iff.mp hact
  exact ⟨client, htell, rfl⟩

/-- What no action takes back. -/
structure Extends (s s' : Interleaving) : Prop where
  topics : s'.client.topics = s.client.topics
  keys : s'.client.keys = s.client.keys
  config : s'.client.config = s.client.config
  handled : s.handled ⊆ s'.handled
  dropped : s.dropped ⊆ s'.dropped

theorem Extends.answered (h : s.Extends s') (hanswered : s.Answered name value) :
    s'.Answered name value := by
  obtain ⟨m, hm, hsender, ciphertext, hdecode, hopen⟩ := hanswered
  exact ⟨m, h.handled hm, h.topics ▸ hsender, ciphertext, hdecode, h.keys ▸ hopen⟩

theorem extends_of_act (hact : s.act action = some s') : s.Extends s' := by
  have hrefl := List.Subset.refl s.handled
  have hdropped := List.Subset.refl s.dropped
  cases action with
  | ask name =>
    cases hact
    exact ⟨rfl, rfl, rfl, hrefl, hdropped⟩
  | call id =>
    obtain ⟨k, -, -, k', client, bus, hstride, rfl⟩ := stride_of_act_call hact
    have hframe := hstride.frame
    exact ⟨by rw [hframe], by rw [hframe], by rw [hframe], hrefl, hdropped⟩
  | drop id =>
    obtain ⟨k, -, -, rfl⟩ := act_drop_cases hact
    exact ⟨rfl, rfl, rfl, hrefl, List.subset_append_left _ _⟩
  | keep m =>
    cases hact
    have hframe := s.client.keep_frame m
    exact ⟨by rw [hframe], by rw [hframe], by rw [hframe], List.subset_append_left _ _, hdropped⟩
  | tell place =>
    obtain ⟨client, htell, rfl⟩ := act_tell_cases hact
    obtain ⟨name, value, -, rfl⟩ := CredentialClient.tellAt_cases htell
    exact ⟨rfl, rfl, rfl, hrefl, hdropped⟩
  | pass millis =>
    cases hact
    exact ⟨rfl, rfl, rfl, hrefl, hdropped⟩
  | rewire bus =>
    cases hact
    exact ⟨rfl, rfl, rfl, hrefl, hdropped⟩

theorem Leads.extends (h : s.Leads s') : s.Extends s' := by
  induction h with
  | refl => exact ⟨rfl, rfl, rfl, List.Subset.refl _, List.Subset.refl _⟩
  | tail _ hstep ih =>
    obtain ⟨action, hact⟩ := hstep
    have h := extends_of_act hact
    exact ⟨h.topics.trans ih.topics, h.keys.trans ih.keys, h.config.trans ih.config,
      fun _ hm => h.handled (ih.handled hm), fun _ hid => h.dropped (ih.dropped hid)⟩

theorem Leads.of_run {actions : List Action} (h : s.run actions = some s') : s.Leads s' := by
  induction actions generalizing s with
  | nil =>
    cases h
    exact .refl
  | cons action actions ih =>
    obtain ⟨next, hact, hrest⟩ := Option.bind_eq_some_iff.mp h
    exact .head ⟨action, hact⟩ (ih hrest)

/-- A run whose end is known in part. -/
theorem exists_run {α : Type} {actions : List Action} {f : Interleaving → α} {y : α}
    {P : Interleaving → Prop} (h : (s.run actions).map f = some y)
    (hP : ∀ s', s.Leads s' → f s' = y → P s') : ∃ s', s.run actions = some s' ∧ P s' := by
  obtain ⟨s', hrun, hfacts⟩ := Option.map_eq_some_iff.mp h
  exact ⟨s', hrun, hP s' (.of_run hrun) hfacts⟩

/-! ## What the program runs -/

/-- Telling the oldest value is one of the actions. -/
theorem leads_tell (s : Interleaving) : s.Leads { s with client := s.client.tell } := by
  unfold CredentialClient.tell
  split
  · exact .refl
  · next name value rest huntold =>
    refine .single ⟨.tell 0, ?_⟩
    show (s.client.tellAt 0).map _ = _
    unfold CredentialClient.tellAt
    rw [huntold]
    rfl

/-- A message that is handled from beginning to end is kept, and then all is told. -/
theorem leads_handle (s : Interleaving) (m : Message) :
    s.Leads { s with client := s.client.handle m, handled := s.handled ++ [m] } := by
  have htells : ∀ (entries : List (String × String)) (s : Interleaving),
      s.Leads { s with client := entries.foldl (fun c _ => c.tell) s.client } := by
    intro entries
    induction entries with
    | nil => exact fun s => .refl
    | cons entry rest ih => exact fun s => (leads_tell s).trans (ih _)
  exact .head ⟨.keep m, rfl⟩ (htells _ _)

/-- A call that runs on its own takes one step after another. -/
theorem leads_runCall (s : Interleaving) (id fuel : Nat) :
    ∃ sent openers, s.Leads { s with
      client := (CredentialClient.runCall id fuel (s.client, s.bus)).1
      bus := (CredentialClient.runCall id fuel (s.client, s.bus)).2
      sent, openers } := by
  induction fuel generalizing s with
  | zero => exact ⟨s.sent, s.openers, .refl⟩
  | succ fuel ih =>
    unfold CredentialClient.runCall
    split
    · next next hstep =>
      obtain ⟨k, hcall, hnext⟩ := Option.bind_eq_some_iff.mp hstep
      have hact : s.act (.call id) = some { s with
          client := next.1
          bus := next.2
          sent := s.sent ++ next.2.published.drop s.bus.published.length
          openers := s.openers ++ if s.client.opens k then [k.name] else [] } := by
        show (s.client.call? id).bind _ = _
        rw [hcall, Option.bind_some, hnext]
        rfl
      obtain ⟨sent, openers, hrest⟩ :=
        ih { s with client := next.1, bus := next.2, sent := _, openers := _ }
      exact ⟨sent, openers, .head ⟨_, hact⟩ hrest⟩
    · exact ⟨s.sent, s.openers, .refl⟩

/-! ## What every action keeps -/

/-- The places are those of the calls, every value was brought by an answer, no call fails for want
of its place, and only calls that were given up are missing. -/
structure Sound (s : Interleaving) : Prop where
  seated : s.client.Seated
  backed : s.client.Backed s.Answered
  unstruck : s.client.Unstruck
  complete : s.dropped = [] → s.client.calls.map Call.id = List.range s.client.made

theorem sound_start (topics : Generator) (keys : KeyPair) (config : ClientConfig) (bus : Bus) :
    (start topics keys config bus).Sound := by
  have hwaiters : ∀ name, (start topics keys config bus).client.waiters name = [] := fun _ => rfl
  refine ⟨⟨List.Sublist.refl _, ?_, ?_, ?_, ?_⟩, ⟨?_, ?_, ?_⟩, ?_, fun _ => rfl⟩
  · simp [start]
  · simp [hwaiters]
  · simp [hwaiters]
  · simp [start]
  · simp [start]
  · simp [start]
  · simp [start]
  · simp [start, CredentialClient.Unstruck]

/-- Every action keeps it. -/
theorem Sound.act (h : s.Sound) (hact : s.act action = some s') : s'.Sound := by
  have hbacked : s.client.Backed s'.Answered :=
    h.backed.mono fun _ _ => (extends_of_act hact).answered
  cases action with
  | ask name =>
    cases hact
    refine ⟨h.seated.ask name, hbacked.ask name, h.unstruck.ask name, fun hnone => ?_⟩
    show (s.client.calls ++ [_]).map Call.id = List.range (s.client.made + 1)
    rw [List.map_append, h.complete hnone, List.range_succ]
    rfl
  | call id =>
    obtain ⟨k, hk, -, k', client, bus, hstride, rfl⟩ := stride_of_act_call hact
    refine ⟨h.seated.stride hk hstride, hbacked.stride hk hstride,
      h.unstruck.stride h.seated hk hstride, fun hnone => ?_⟩
    rw [hstride.calls_eq, CredentialClient.map_id_setCall, h.complete hnone, hstride.frame]
  | drop id =>
    obtain ⟨k, -, -, rfl⟩ := act_drop_cases hact
    refine ⟨h.seated.abandon id, hbacked.abandon id, h.unstruck.abandon id, fun hnone => ?_⟩
    exact absurd hnone (List.append_ne_nil_of_right_ne_nil _ (List.cons_ne_nil _ _))
  -- the new value is backed by the message that was just handled
  | keep m =>
    cases hact
    have hframe := s.client.keep_frame m
    refine ⟨h.seated.keep m, hbacked.keep fun name value hm => ?_, fun k hk => ?_, fun hnone => ?_⟩
    · refine ⟨m, List.mem_append_right _ (List.mem_singleton_self m), ?_⟩
      show (s.client.keep m).Answers m name value
      rw [hframe]
      exact hm
    · replace hk : k ∈ (s.client.keep m).calls := hk
      rw [hframe] at hk
      exact h.unstruck k hk
    · show (s.client.keep m).calls.map Call.id = List.range (s.client.keep m).made
      rw [hframe]
      exact h.complete hnone
  | tell place =>
    obtain ⟨client, htell, rfl⟩ := act_tell_cases hact
    refine ⟨?_, hbacked.tellAt h.seated htell, h.unstruck.tellAt h.seated htell, fun hnone => ?_⟩
    · obtain ⟨name, value, -, rfl⟩ := CredentialClient.tellAt_cases htell
      exact (h.seated.eraseUntold place).resolve name value
    · obtain ⟨name, value, -, rfl⟩ := CredentialClient.tellAt_cases htell
      rw [(h.seated.eraseUntold place).map_id_resolve]
      exact h.complete hnone
  | pass millis =>
    cases hact
    exact ⟨h.seated.congr rfl rfl rfl, ⟨hbacked.cached, hbacked.untold, hbacked.held⟩, h.unstruck,
      h.complete⟩
  | rewire bus =>
    cases hact
    exact ⟨h.seated, hbacked, h.unstruck, h.complete⟩

theorem Leads.sound (h : (start topics keys config bus).Leads s) : s.Sound := by
  induction h with
  | refl => exact sound_start topics keys config bus
  | tail _ hstep ih =>
    obtain ⟨action, hact⟩ := hstep
    exact ih.act hact

/-! ## What an action makes of a call -/

/-- How an action concerns a call that is there before and after. -/
inductive Moves (s s' : Interleaving) (action : Action) (k : Call) : Call → Prop
  /-- The call takes a step. -/
  | steps {k' : Call} (act : action = .call k.id)
      (stride : s.client.Stride s.bus k k' s'.client s'.bus)
      (sent : s'.sent = s.sent ++ s'.bus.published.drop s.bus.published.length) :
      Moves s s' action k k'
  /-- A value is told to its name. -/
  | told {place : Nat} {value : String} (act : action = .tell place)
      (entry : s.client.untold[place]? = some (k.name, value)) : Moves s s' action k (k.give value)
  /-- Not at all. -/
  | stays (other : action ≠ .call k.id) (untold : ∀ place value, action = .tell place →
        s.client.untold[place]? ≠ some (k.name, value)) : Moves s s' action k k

namespace Moves

theorem id_eq (h : s.Moves s' action k k') : k'.id = k.id := by
  cases h with
  | steps act stride => exact stride.id_eq
  | told => exact k.give_id _
  | stays => rfl

theorem name_eq (h : s.Moves s' action k k') : k'.name = k.name := by
  cases h with
  | steps act stride => exact stride.name_eq
  | told => exact k.give_name _
  | stays => rfl

end Moves

/-- Some actions change no call. -/
theorem moves_of_calls (hcalls : s'.client.calls = s.client.calls) (hcall : ∀ id, action ≠ .call id)
    (htell : ∀ place, action ≠ .tell place) (hj : j ∈ s'.client.calls) :
    ∃ k ∈ s.client.calls, s.Moves s' action k j :=
  ⟨j, hcalls ▸ hj, .stays (hcall _) fun place _ heq => absurd heq (htell place)⟩

/-- Whatever call is there after an action is new, or was there before. -/
theorem Sound.moves (h : s.Sound) (hact : s.act action = some s') (hj : j ∈ s'.client.calls) :
    (∃ name, action = .ask name ∧ j = { id := s.client.made, name }) ∨
      ∃ k ∈ s.client.calls, s.Moves s' action k j := by
  cases action with
  | ask name =>
    cases hact
    rcases List.mem_append.mp hj with hj | hj
    · exact .inr ⟨j, hj, .stays (by simp) (by simp)⟩
    · exact .inl ⟨name, rfl, List.mem_singleton.mp hj⟩
  | call id =>
    obtain ⟨k, hk, rfl, k', client, bus, hstride, rfl⟩ := stride_of_act_call hact
    refine .inr ?_
    rw [hstride.calls_eq, CredentialClient.mem_setCall hk hstride.id_eq] at hj
    rcases hj with rfl | ⟨hj, hne⟩
    · exact ⟨k, hk, .steps rfl hstride rfl⟩
    · refine ⟨j, hj, .stays ?_ (by simp)⟩
      intro heq
      exact hne (Action.call.inj heq).symm
  | drop id =>
    obtain ⟨k, -, -, rfl⟩ := act_drop_cases hact
    exact .inr ⟨j, (List.mem_filter.mp hj).1, .stays (by simp) (by simp)⟩
  | keep m =>
    cases hact
    refine .inr (moves_of_calls ?_ (by simp) (by simp) hj)
    show (s.client.keep m).calls = s.client.calls
    rw [s.client.keep_frame m]
  | tell place =>
    obtain ⟨client, htell, rfl⟩ := act_tell_cases hact
    obtain ⟨name, value, hentry, rfl⟩ := CredentialClient.tellAt_cases htell
    refine .inr ?_
    rw [(h.seated.eraseUntold place).calls_resolve] at hj
    obtain ⟨k, hk, rfl⟩ := List.mem_map.mp hj
    refine ⟨k, hk, ?_⟩
    by_cases hname : k.name = name
    · rw [if_pos hname]
      exact .told rfl (hname ▸ hentry)
    -- a call for another name stays as it is
    · rw [if_neg hname]
      refine .stays (by simp) ?_
      intro place' value' heq hentry'
      cases heq
      rw [hentry] at hentry'
      cases hentry'
      exact hname rfl
  | pass millis =>
    cases hact
    exact .inr (moves_of_calls rfl (by simp) (by simp) hj)
  | rewire bus =>
    cases hact
    exact .inr (moves_of_calls rfl (by simp) (by simp) hj)

/-- Whatever call is there before an action is given up, or is there afterwards. -/
theorem Sound.moved (h : s.Sound) (hact : s.act action = some s') (hk : k ∈ s.client.calls) :
    action = .drop k.id ∨ ∃ j ∈ s'.client.calls, s.Moves s' action k j := by
  suffices action = .drop k.id ∨ ∃ j ∈ s'.client.calls, j.id = k.id by
    rcases this with hdrop | ⟨j, hj, hid⟩
    · exact .inl hdrop
    · rcases h.moves hact hj with ⟨name, -, rfl⟩ | ⟨i, hi, hmoves⟩
      · -- the number of a new call is not taken
        exact absurd hid (Nat.ne_of_gt (h.seated.id_lt hk))
      · obtain rfl := h.seated.eq_of_id hk hi (hmoves.id_eq.symm.trans hid)
        exact .inr ⟨j, hj, hmoves⟩
  -- no action but giving up takes a call away, and each keeps its number
  cases action with
  | ask name =>
    cases hact
    exact .inr ⟨k, List.mem_append_left _ hk, rfl⟩
  | call id =>
    obtain ⟨i, hi, -, i', client, bus, hstride, rfl⟩ := stride_of_act_call hact
    refine .inr ?_
    have hid : k.id ∈ client.calls.map Call.id := by
      rw [hstride.calls_eq, CredentialClient.map_id_setCall]
      exact List.mem_map_of_mem hk
    exact List.mem_map.mp hid
  | drop id =>
    obtain ⟨i, -, -, rfl⟩ := act_drop_cases hact
    by_cases hsame : id = k.id
    · exact .inl (congrArg Action.drop hsame)
    · refine .inr ⟨k, List.mem_filter.mpr ⟨hk, ?_⟩, rfl⟩
      exact bne_iff_ne.mpr (Ne.symm hsame)
  | keep m =>
    cases hact
    refine .inr ⟨k, ?_, rfl⟩
    show k ∈ (s.client.keep m).calls
    rw [s.client.keep_frame m]
    exact hk
  | tell place =>
    obtain ⟨client, htell, rfl⟩ := act_tell_cases hact
    obtain ⟨name, value, -, rfl⟩ := CredentialClient.tellAt_cases htell
    refine .inr ?_
    have hid : k.id ∈ (CredentialClient.resolve
        { s.client with untold := s.client.untold.eraseIdx place } name value).calls.map
          Call.id := by
      rw [(h.seated.eraseUntold place).map_id_resolve]
      exact List.mem_map_of_mem hk
    exact List.mem_map.mp hid
  | pass millis =>
    cases hact
    exact .inr ⟨k, hk, rfl⟩
  | rewire bus =>
    cases hact
    exact .inr ⟨k, hk, rfl⟩

/-! ## Values that came to a call -/

/-- A value came to a call while it waited, and the call is to return it or has returned it, unless
it was given up. -/
def Settles (s : Interleaving) (id : Nat) (value : String) : Prop :=
  id ∈ s.dropped ∨ ∃ k ∈ s.client.calls, k.id = id ∧
    ((∃ attempt, k.stage = .wait attempt (some value)) ∨ k.stage = .done (.ok value))

/-- Nothing that happens later takes the value from the call. -/
theorem Settles.act (h : s.Settles id value) (hsound : s.Sound) (hact : s.act action = some s') :
    s'.Settles id value := by
  rcases h with hdropped | ⟨k, hk, rfl, hstage⟩
  · exact .inl ((extends_of_act hact).dropped hdropped)
  rcases hsound.moved hact hk with rfl | ⟨j, hj, hmoves⟩
  · obtain ⟨i, -, -, rfl⟩ := act_drop_cases hact
    exact .inl (List.mem_append_right _ (List.mem_singleton_self _))
  · refine .inr ⟨j, hj, hmoves.id_eq, ?_⟩
    cases hmoves with
    | steps act stride =>
      -- all that the call can still do is return the value
      rcases hstage with ⟨attempt, hstage⟩ | hstage
      · rw [stride.eq_of_wait_some hstage]
        exact .inr rfl
      · exact absurd hstage (stride.not_done _)
    | told =>
      have hnone : ∀ attempt, ¬ k.Awaits attempt := by
        rcases hstage with ⟨_, hstage⟩ | hstage <;> simp [Call.Awaits, hstage]
      rwa [Call.give_of_not_awaits hnone]
    | stays => exact hstage

theorem Settles.leads (h : s.Settles id value) (hsound : s.Sound) (hleads : s.Leads s') :
    s'.Settles id value := by
  suffices s'.Sound ∧ s'.Settles id value from this.2
  induction hleads with
  | refl => exact ⟨hsound, h⟩
  | tail _ hstep ih =>
    obtain ⟨action, hact⟩ := hstep
    exact ⟨ih.1.act hact, ih.2.act ih.1 hact⟩

/-! ## Integrity -/

/-- A value was kept for a name: other values, the places and the calls are as they were. -/
structure Kept (s : Interleaving) (name value : String) (s' : Interleaving) : Prop where
  untold : s'.client.untold = s.client.untold ++ [(name, value)]
  cached : s'.client.cache.lookup name = some value
  others : ∀ other, other ≠ name → s'.client.cache.lookup other = s.client.cache.lookup other
  pending : s'.client.pending = s.client.pending
  calls : s'.client.calls = s.client.calls

/-- A value was told to a name: each call for the name that waits is given the value, the name has
no places any more, and values, places and calls of other names are as they were. -/
structure Told (s : Interleaving) (name value : String) (s' : Interleaving) : Prop where
  calls : s'.client.calls = s.client.calls.map fun k => if k.name = name then k.give value else k
  emptied : s'.client.pending.lookup name = none
  others : ∀ other, other ≠ name → s'.client.pending.lookup other = s.client.pending.lookup other
  cache : s'.client.cache = s.client.cache
  settles : ∀ k ∈ s.client.calls, k.name = name → ∀ attempt, k.stage = .wait attempt none →
    ∀ later, s'.Leads later → later.Settles k.id value

/-- What holds of a client whatever its calls do. -/
structure Integrity (s : Interleaving) : Prop where
  /-- A call returns only what the authority answered for its name. -/
  answered : ∀ k ∈ s.client.calls, ∀ value, k.stage = .done (.ok value) →
    s.Answered k.name value
  /-- No call returns because its place was struck off the table. -/
  not_cancelled : ∀ k ∈ s.client.calls, k.stage ≠ .done (.error .cancelled)
  /-- A call to which a value came returns it with its next step. -/
  returns : ∀ k ∈ s.client.calls, ∀ attempt value, k.stage = .wait attempt (some value) →
    ∃ s', s.act (.call k.id) = some s' ∧ { k with stage := .done (.ok value) } ∈ s'.client.calls
  /-- An answer is kept, and its value is to be told. -/
  kept : ∀ m name value, s.client.Answers m name value →
    ∃ s', s.act (.keep m) = some s' ∧ s.Kept name value s'
  /-- A value that is to be told reaches everyone who waits for its name. -/
  told : ∀ place name value, s.client.untold[place]? = some (name, value) →
    ∃ s', s.act (.tell place) = some s' ∧ s.Told name value s'
  /-- When no call is in progress and none was given up, the table is empty. -/
  idle : s.dropped = [] → (∀ k ∈ s.client.calls, k.isDone = true) → s.client.pending = []

theorem kept_of_answers {m : Message} (h : s.client.Answers m name value) :
    ∃ s', s.act (.keep m) = some s' ∧ s.Kept name value s' := by
  have hkeep := CredentialClient.keep_of_answers h
  refine ⟨_, rfl, ?_, ?_, ?_, ?_, ?_⟩
  · rw [hkeep]
  · rw [hkeep]
    exact CredentialClient.lookup_setKey name value _
  · intro other hother
    rw [hkeep]
    exact CredentialClient.lookup_setKey_of_ne hother value _
  · rw [hkeep]
  · rw [hkeep]

theorem Sound.told (h : s.Sound) {place : Nat}
    (hentry : s.client.untold[place]? = some (name, value)) :
    ∃ s', s.act (.tell place) = some s' ∧ s.Told name value s' := by
  have hseated := h.seated.eraseUntold place
  have htell : s.client.tellAt place =
      some ({ s.client with untold := s.client.untold.eraseIdx place }.resolve name value) := by
    unfold CredentialClient.tellAt
    rw [hentry]
    rfl
  have hact : s.act (.tell place) = some { s with client :=
      { s.client with untold := s.client.untold.eraseIdx place }.resolve name value } := by
    show (s.client.tellAt place).map _ = _
    rw [htell]
    rfl
  -- from now on nobody waits for the name, and who did has the value
  refine ⟨_, hact, hseated.calls_resolve name value, ?_, ?_, rfl, ?_⟩
  · exact CredentialClient.lookup_filter_ne name s.client.pending
  · exact fun other hother => CredentialClient.lookup_filter_of_ne hother s.client.pending
  · intro k hk hname attempt hstage later hleads
    refine Settles.leads (.inr ⟨k.give value, ?_, k.give_id value, .inl ⟨attempt, ?_⟩⟩)
      (h.act hact) hleads
    · rw [hseated.calls_resolve]
      exact List.mem_map.mpr ⟨k, hk, if_pos hname⟩
    · unfold Call.give
      rw [hstage]

/-- Whatever the calls of a client do and whatever happens between their steps, values come from the
authority alone and reach all who wait for them. -/
theorem integrity_of_leads (h : (start topics keys config bus).Leads s) : s.Integrity where
  answered k hk value hstage := h.sound.backed.held k hk value (.inr hstage)
  not_cancelled k hk hstage := h.sound.unstruck k hk (.inr hstage)
  returns k hk attempt value hstage := by
    -- a call that holds its value goes on at once, and its step is the one that returns
    have hsome : (s.act (.call k.id)).isSome = true := by
      show ((s.client.call? k.id).bind fun k => (s.client.step s.bus k).map _).isSome = true
      rw [h.sound.seated.call?_eq hk, Option.bind_some, CredentialClient.step_wait_some hstage]
      rfl
    obtain ⟨s', hact⟩ := Option.isSome_iff_exists.mp hsome
    obtain ⟨j, hj, hid, j', client, bus, hstride, rfl⟩ := stride_of_act_call hact
    obtain rfl := h.sound.seated.eq_of_id hk hj hid
    obtain rfl := hstride.eq_of_wait_some hstage
    refine ⟨_, hact, ?_⟩
    rw [hstride.calls_eq]
    exact CredentialClient.mem_setCall_self hk _
  kept _ _ _ := kept_of_answers
  told _ _ _ := h.sound.told
  idle hnone := h.sound.seated.pending_eq_nil (h.sound.complete hnone)

/-- Two calls wait for a name and only the first of them asks; when an answer comes, both are given
its value. -/
theorem integrity_shared_answer :
    let keys := PublicKey.keyPair ⟨Nat.pow 2 1023 + 1, Cipher.usualExponent⟩
    ∃ s s', (start ⟨"auth", "agent 1"⟩ keys {} { connected := true }).Leads s ∧ s.Integrity ∧
      s.client.calls.map Call.stage = [.wait 1 none, .wait 1 none] ∧ s.sent.length = 1 ∧
      s.act (.tell 0) = some s' ∧ s.Told "api key" "secret" s' ∧
      s'.client.calls.map Call.stage = [.wait 1 (some "secret"), .wait 1 (some "secret")] := by
  intro keys
  have hsuited : keys.SuitedBy .plain := PublicKey.suitedBy_plain (by decide +kernel)
  have hfits : keys.Fits "secret" := by decide +kernel
  obtain ⟨ciphertext, -, hopen, hquoted⟩ := KeyPair.encrypt_of_fits hsuited hfits 0
  have hwaiting : ((start ⟨"auth", "agent 1"⟩ keys {} { connected := true }).run
      [.ask "api key", .ask "api key", .call 0, .call 0, .call 0, .call 1, .call 1]).isSome := rfl
  let waiting := Option.get _ hwaiting
  -- the authority answers
  let m : Message := .ofData (Generator.publishToAgent ⟨"auth", "auth"⟩ "agent 1")
    ((Event.credentialResponse "api key" ciphertext).toData "now")
  have hdecode : m.decode = .ok (.credentialResponse "api key" ciphertext) := by
    have hcomplete : (Event.credentialResponse "api key" ciphertext).Complete :=
      show ¬ Text.isBlank "api key" by decide
    refine (Event.decode_toData_eq_ok_iff hcomplete "now").mpr fun text htext => ?_
    rcases List.mem_pair.mp htext with rfl | rfl
    · exact Json.not_isQuoted (by decide)
    · exact hquoted
  have hsender : m.senderId = some "auth" :=
    show Topic.senderOf (Generator.publishToAgent ⟨"auth", "auth"⟩ "agent 1") = some "auth" by
      decide
  have hanswers : waiting.client.Answers m "api key" "secret" :=
    ⟨hsender, ciphertext, hdecode, hopen⟩
  have hleads := Leads.of_run (Option.some_get hwaiting).symm
  obtain ⟨s, hkeep, hkept⟩ := (integrity_of_leads hleads).kept m "api key" "secret" hanswers
  have hleads' := hleads.tail ⟨_, hkeep⟩
  have hintegrity := integrity_of_leads hleads'
  obtain ⟨s', htell, htold⟩ := hintegrity.told 0 "api key" "secret" (by rw [hkept.untold]; rfl)
  refine ⟨s, s', hleads', hintegrity, ?_, ?_, htell, htold, ?_⟩
  · rw [hkept.calls]
    rfl
  · cases hkeep
    rfl
  · rw [htold.calls, hkept.calls]
    rfl

end Interleaving

end Coordination
