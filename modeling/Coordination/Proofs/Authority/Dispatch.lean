import Coordination.Proofs.Bus.Table
import Coordination.Proofs.Records.Queries
import Coordination.Authority
import Coordination.Reproducible
/-!
# What the authority does with a message

A message has an effect in two cases: a host on record announces itself, or an agent asks for a
credential that was granted to it.  In both cases the sender speaks for itself, and exactly one
event is sent in return.  Everything else leaves the authority and the records as they are.
-/

namespace Coordination

/-! ## Messages with an effect -/

/-- A host that is on record as `known` announces itself as `reported`. -/
def Message.Announces (m : Message) (r : Records) (reported known : HostModel) : Prop :=
  m.decode = .ok (.hostConnect reported) ∧ m.senderId = some reported.id ∧
    r.host? reported.id = some known

/-- An agent asks an authority for a credential that was granted to it, and the secret can be sealed
to the key that the agent names. -/
def Message.Asks (m : Message) (a : Authority) (r : Records) (agentId name ciphertext : String) :
    Prop :=
  ∃ jwk c, m.decode = .ok (.credentialRequest agentId name jwk) ∧ m.senderId = some agentId ∧
    r.Grants agentId name c ∧
      jwk.encrypt a.cipher a.draws c.value.toUTF8.toList = .ok ciphertext

/-- No message does both. -/
theorem Message.Announces.not_asks {m : Message} {a : Authority} {r : Records}
    {reported known : HostModel} (h : m.Announces r reported known)
    {agentId name ciphertext : String} : ¬ m.Asks a r agentId name ciphertext := by
  intro hparts
  obtain ⟨jwk, c, hdecode, -⟩ := hparts
  rw [h.1] at hdecode
  cases hdecode

namespace Authority

section Sending

variable (a : Authority)

/-! ## Sending -/

/-- The message that carries an event which is sent now. -/
def outgoing (topic : String) (e : Event) : RawMessage :=
  (Message.ofData topic (e.toData (a.bus.clock.stamp a.bus.now))).toRaw

/-- What the transport takes of a message: all of it, unless it is down. -/
def taken (raw : RawMessage) : List RawMessage :=
  if TransportCall.publish ∈ a.bus.down then [] else [raw]

/-- The authority after one event was sent on a bus that is connected.  One stamp is used up and one
message is handed to the transport. -/
def afterSending (topic : String) (e : Event) : Authority :=
  { a with bus := { a.bus with
      clock := a.bus.clock.advance a.bus.now
      accepted := a.bus.accepted ++ a.taken (a.outgoing topic e)
      trace := a.bus.trace ++ (a.taken (a.outgoing topic e)).map .publish } }

def afterSealing : Authority := { a with draws := a.draws + 1 }

/-- On a connected bus publishing hands over this one message. -/
theorem publish_of_connected {a : Authority} (h : a.bus.connected = true) (topic : String)
    (e : Event) : (a.publish topic e).2 = a.afterSending topic e := by
  unfold publish Bus.publishEvent Bus.publishAsync Bus.call afterSending taken
  simp only [h, Bool.not_true]
  by_cases hdown : TransportCall.publish ∈ a.bus.down
  · simp [hdown]
  · simp only [hdown, if_false]
    rfl

end Sending

/-! ## Hosts -/

/-- What the authority does when a host announces itself: it records what is new, and welcomes the
host with its record from before, its plugins as they now stand, and its enabled agents in the
order of their ids. -/
structure Welcomes (a : Authority) (r : Records) (reported known : HostModel) (a' : Authority)
    (r' : Records) : Prop where
  synced : r.sync reported.id reported.plugins = .ok (r', r'.pluginsOf reported.id)
  frame : r.SameBut reported.id r'
  sent : ∃ agents : List AgentModel,
    agents.Perm (r.agents.filter fun x => x.isEnabled && x.hostId == some reported.id) ∧
      (agents.Pairwise fun x y => x.id ≤ y.id) ∧
      a' = a.afterSending (a.topics.publishToHost reported.id)
        (.hostWelcome known (r'.pluginsOf reported.id) agents)

variable {a : Authority} {r : Records}

theorem hostConnected_of_known (h : a.bus.connected = true) {reported known : HostModel}
    (hknown : r.host? reported.id = some known) :
    ∃ a' r', (a.hostConnected ⟨r, []⟩ reported).2 = (a', ⟨r', []⟩) ∧
      a.Welcomes r reported known a' r' := by
  obtain ⟨e, hentry, rfl⟩ := Option.map_eq_some_iff.mp hknown
  have hid := Records.id_of_entry? hentry
  obtain ⟨r', hsync, hframe⟩ := Records.sync_eq_ok hentry reported.plugins
  refine ⟨a.afterSending (a.topics.publishToHost reported.id)
    (.hostWelcome e.host (r'.pluginsOf reported.id) (r'.agentsOf reported.id)), r', ?_,
    hsync, hframe, r'.agentsOf reported.id, ?_, Records.sorted_sortById _, rfl⟩
  · -- the record is fetched before the plugins are recorded
    have hhost := Repository.host?_of_up r reported.id
    have hanswer := Repository.sync_of_up r hsync
    rw [hknown] at hhost
    unfold hostConnected
    simp only [hhost, hid, hanswer, Repository.agentsOf_of_up, publish_of_connected h]
  · rw [← hframe.agents]
    exact Records.perm_sortById _

/-- A host that is not on record is not welcomed. -/
theorem hostConnected_of_unknown {reported : HostModel} (h : r.host? reported.id = none) :
    (a.hostConnected ⟨r, []⟩ reported).2 = (a, ⟨r, []⟩) := by
  unfold hostConnected
  rw [Repository.host?_of_up, h]

/-! ## Credentials -/

theorem credentialRequested_of_grant (h : a.bus.connected = true) {agentId name : String}
    {c : Credential} (hgrant : r.Grants agentId name c) {jwk : Jwk} {ciphertext : String}
    (hseal : jwk.encrypt a.cipher a.draws c.value.toUTF8.toList = .ok ciphertext) :
    (a.credentialRequested ⟨r, []⟩ agentId name jwk).2 =
      a.afterSealing.afterSending (a.topics.publishToAgent agentId)
        (.credentialResponse name ciphertext) := by
  have hvalue : r.credential? agentId name = some c.value :=
    Records.credential?_eq_some_iff.mpr ⟨c, hgrant, rfl⟩
  have hup : a.afterSealing.bus.connected = true := h
  unfold credentialRequested
  simp only [Repository.credential?_of_up, hvalue, hseal]
  exact publish_of_connected hup _ _

/-- What was not granted, or cannot be sealed, is not sent. -/
theorem credentialRequested_of_not_grant {agentId name : String} {jwk : Jwk}
    (h : ∀ c ciphertext, r.Grants agentId name c →
      jwk.encrypt a.cipher a.draws c.value.toUTF8.toList ≠ .ok ciphertext) :
    (a.credentialRequested ⟨r, []⟩ agentId name jwk).2 = a := by
  unfold credentialRequested
  rw [Repository.credential?_of_up]
  cases hvalue : r.credential? agentId name with
  | none => rfl
  | some value =>
    obtain ⟨c, hgrant, rfl⟩ := Records.credential?_eq_some_iff.mp hvalue
    cases hseal : jwk.encrypt a.cipher a.draws c.value.toUTF8.toList with
    | error e => simp only [hseal]
    | ok ciphertext => exact absurd hseal (h c ciphertext hgrant)

/-! ## Dispatch -/

theorem handle_of_announces (h : a.bus.connected = true) {m : Message}
    {reported known : HostModel} (hm : m.Announces r reported known) :
    ∃ a' r', a.handle ⟨r, []⟩ m = (a', ⟨r', []⟩) ∧ a.Welcomes r reported known a' r' := by
  obtain ⟨hdecode, hsender, hknown⟩ := hm
  unfold handle
  simp only [hsender, hdecode, if_true]
  exact hostConnected_of_known h hknown

/-- An agent that asks for what was granted to it is answered. -/
theorem handle_of_asks (h : a.bus.connected = true) {m : Message}
    {agentId name ciphertext : String} (hm : m.Asks a r agentId name ciphertext) :
    a.handle ⟨r, []⟩ m = (a.afterSealing.afterSending (a.topics.publishToAgent agentId)
      (.credentialResponse name ciphertext), ⟨r, []⟩) := by
  obtain ⟨jwk, c, hdecode, hsender, hgrant, hseal⟩ := hm
  unfold handle
  simp only [hsender, hdecode, if_true, credentialRequested_of_grant h hgrant hseal]

theorem handle_of_neither {m : Message}
    (hhost : ∀ reported known, ¬ m.Announces r reported known)
    (hagent : ∀ agentId name ciphertext, ¬ m.Asks a r agentId name ciphertext) :
    a.handle ⟨r, []⟩ m = (a, ⟨r, []⟩) := by
  unfold handle
  cases hsender : m.senderId with
  | none => rfl
  | some sender =>
    cases hdecode : m.decode with
    | error e => rfl
    | ok e =>
      cases e with
      | hostConnect host =>
        -- a host that speaks for itself and is still not welcomed is not on record
        by_cases hid : host.id = sender
        · subst hid
          have hunknown : r.host? host.id = none := by
            rw [Option.eq_none_iff_forall_ne_some]
            exact fun known hknown => hhost host known ⟨hdecode, hsender, hknown⟩
          simp only [if_true, hostConnected_of_unknown hunknown]
        · simp only [if_neg hid]
      | credentialRequest agentId name jwk =>
        -- an agent that asks for itself and is not answered has no such grant, or a bad key
        by_cases hid : agentId = sender
        · subst hid
          have hnot : ∀ c ciphertext, r.Grants agentId name c →
              jwk.encrypt a.cipher a.draws c.value.toUTF8.toList ≠ .ok ciphertext :=
            fun c ciphertext hgrant hseal =>
              hagent agentId name ciphertext ⟨jwk, c, hdecode, hsender, hgrant, hseal⟩
          simp only [if_true, credentialRequested_of_not_grant hnot]
        · simp only [if_neg hid]
      | _ => rfl

/-- **Dispatch is exact.**  On a connected bus a message is answered by one welcome, or by one
sealed credential with the records unchanged, or it changes nothing at all; which of the three holds
is decided by who sent it and what is on record. -/
theorem handle_exact (h : a.bus.connected = true) (r : Records) (m : Message) :
    (∀ reported known, m.Announces r reported known →
      ∃ a' r', a.handle ⟨r, []⟩ m = (a', ⟨r', []⟩) ∧ a.Welcomes r reported known a' r') ∧
    (∀ agentId name ciphertext, m.Asks a r agentId name ciphertext →
      a.handle ⟨r, []⟩ m = (a.afterSealing.afterSending (a.topics.publishToAgent agentId)
        (.credentialResponse name ciphertext), ⟨r, []⟩)) ∧
    ((∀ reported known, ¬ m.Announces r reported known) →
      (∀ agentId name ciphertext, ¬ m.Asks a r agentId name ciphertext) →
      a.handle ⟨r, []⟩ m = (a, ⟨r, []⟩)) ∧
    (∀ reported known agentId name ciphertext,
      ¬ (m.Announces r reported known ∧ m.Asks a r agentId name ciphertext)) := by
  refine ⟨?_, ?_, ?_, ?_⟩
  · intro reported known hm
    exact handle_of_announces h hm
  · intro agentId name ciphertext hm
    exact handle_of_asks h hm
  · intro hhost hagent
    exact handle_of_neither hhost hagent
  · intro reported known agentId name ciphertext hparts
    obtain ⟨hhost, hagent⟩ := hparts
    exact hhost.not_asks hagent

/-- A host reports a plugin that is not on record. -/
theorem handle_exact_new_plugin :
    let a : Authority :=
      { discovery :=
          { id := "authority"
            authorityUri := { scheme := "http", host := some "authority", path := .rooted [""] }
            internalUri := none, brokerOverride := none, backoff := .withMax Backoff.defaultMax }
        bus := { connected := true }
        topics := ⟨"authority", "authority"⟩
        cipher := .plain }
    let known : HostModel := { id := "host 1", name := "kitchen" }
    let reported : HostModel := { id := "host 1", plugins := [{ name := "lamp" }] }
    let r : Records :=
      { hosts := [⟨known, some "user"⟩]
        agents := [{ id := "b", hostId := some "host 1" }, { id := "a", hostId := some "host 1" }]
        newId := serialId }
    let m := Message.ofData "event/host 1/authority/-/-" ((Event.hostConnect reported).toData "now")
    a.bus.connected = true ∧ m.Announces r reported known ∧
      ∃ a' r', a.handle ⟨r, []⟩ m = (a', ⟨r', []⟩) ∧ a.Welcomes r reported known a' r' := by
  intro a known reported r m
  -- the three parts of an announcement are computed one by one
  have hm : m.Announces r reported known := by
    refine ⟨?_, ?_, ?_⟩
    · decide +kernel
    · decide +kernel
    · decide +kernel
  exact ⟨rfl, hm, (handle_exact rfl r m).1 reported known hm⟩

/-! ## What messages do not concern -/

/-- Two states of one authority with the same connection and the same subscriptions. -/
structure Steady (a a' : Authority) : Prop where
  topics : a'.topics = a.topics
  state : a'.state = a.state
  connected : a'.bus.connected = a.bus.connected
  subscriptions : a'.bus.subscriptions = a.bus.subscriptions

theorem Steady.refl (a : Authority) : a.Steady a := ⟨rfl, rfl, rfl, rfl⟩

theorem Steady.trans {a a' a'' : Authority} (hfirst : a.Steady a') (hsecond : a'.Steady a'') :
    a.Steady a'' where
  topics := hsecond.topics.trans hfirst.topics
  state := hsecond.state.trans hfirst.state
  connected := hsecond.connected.trans hfirst.connected
  subscriptions := hsecond.subscriptions.trans hfirst.subscriptions

theorem steady_publish (a : Authority) (topic : String) (e : Event) :
    a.Steady (a.publish topic e).2 := by
  obtain ⟨hconnected, -, hsubscriptions, -⟩ := a.bus.publishEvent_frame topic e
  exact ⟨rfl, rfl, hconnected, hsubscriptions⟩

theorem steady_hostConnected (a : Authority) (r : Repository) (reported : HostModel) :
    a.Steady (a.hostConnected r reported).2.1 := by
  unfold hostConnected
  split
  · exact .refl a
  · exact .refl a
  · split
    · exact .refl a
    · split
      · exact .refl a
      · exact a.steady_publish _ _

theorem steady_credentialRequested (a : Authority) (r : Repository) (agentId name : String)
    (jwk : Jwk) : a.Steady (a.credentialRequested r agentId name jwk).2 := by
  unfold credentialRequested
  split
  · exact .refl a
  · exact .refl a
  · split
    · exact .refl a
    · -- the draw that was used up concerns neither
      have hsealing : a.Steady a.afterSealing := ⟨rfl, rfl, rfl, rfl⟩
      refine hsealing.trans ?_
      exact a.afterSealing.steady_publish _ _

/-- Handling a message concerns neither the connection nor the subscriptions. -/
theorem steady_handle (a : Authority) (r : Repository) (m : Message) :
    a.Steady (a.handle r m).1 := by
  unfold handle
  split
  · exact .refl a
  · split
    · split
      · exact a.steady_hostConnected r _
      · exact .refl a
    · split
      · exact a.steady_credentialRequested r _ _ _
      · exact .refl a
    · exact .refl a

theorem steady_tellHostOf (a : Authority) (r : Repository) (agent : AgentModel) (e : Event) :
    a.Steady (a.tellHostOf r agent e).2 := by
  unfold tellHostOf
  split
  · exact .refl a
  · exact a.steady_publish _ e

theorem steady_agentCreated (a : Authority) (r : Repository) (agent : AgentModel) :
    a.Steady (a.agentCreated r agent).2 := by
  unfold agentCreated
  split
  · exact .refl a
  · split
    · exact a.steady_tellHostOf r agent _
    · exact .refl a

theorem steady_agentUpdated (a : Authority) (r : Repository) (agent : AgentModel) :
    a.Steady (a.agentUpdated r agent).2 := by
  unfold agentUpdated
  split
  · exact .refl a
  · have hleave : a.Steady (a.sendDisconnect r agent).2 := a.steady_tellHostOf r agent _
    split
    · next heq =>
      rw [heq] at hleave
      exact hleave
    · next heq =>
      rw [heq] at hleave
      split
      · exact hleave.trans (steady_tellHostOf _ r agent _)
      · exact hleave

theorem steady_agentDeleted (a : Authority) (r : Repository) (agent : AgentModel) :
    a.Steady (a.agentDeleted r agent).2 := by
  unfold agentDeleted
  split
  · exact .refl a
  · exact a.steady_tellHostOf r agent _

end Authority

end Coordination
