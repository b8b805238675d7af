import Coordination.Proofs.Model.RoundTrip
import Coordination.Event
/-!
# Events over the wire

An event that is complete is read back from the message that carries it, unless one of its own texts
is itself the JSON of a text: such a text is read as what it quotes, which is never the text again.
-/

namespace Coordination

open Json

/-- Whether a value is an array or an object, as every model is written. -/
def Json.Value.isContainer : Value → Bool
  | .array _ => true
  | .object _ => true
  | _ => false

namespace Event

/-! ## Complete events -/

/-- The types that have a form of their own. -/
def knownKinds : List String :=
  ["host_connect", "host_welcome", "agent_connect", "agent_disconnect", "credential_request",
   "credential_response"]

/-- An event as readers accept it: the ids and names on which dispatch relies are not blank, and
an unknown type has a name that is none of the known ones. -/
def Complete : Event → Prop
  | hostConnect host => ¬ Text.isBlank host.id
  | hostWelcome host _ _ => ¬ Text.isBlank host.id
  | agentConnect agent => ¬ Text.isBlank agent.id
  | agentDisconnect agentId => ¬ Text.isBlank agentId
  | credentialRequest agentId credentialName _ =>
    ¬ Text.isBlank agentId ∧ ¬ Text.isBlank credentialName
  | credentialResponse credentialName _ => ¬ Text.isBlank credentialName
  | unknown kind => kind ≠ "" ∧ kind ∉ knownKinds

instance (e : Event) : Decidable e.Complete := by
  cases e <;> unfold Complete <;> infer_instance

/-- The members of an event that are texts and not models. -/
def textFields : Event → List String
  | agentDisconnect agentId => [agentId]
  | credentialRequest agentId credentialName _ => [agentId, credentialName]
  | credentialResponse credentialName encryptedCredential => [credentialName, encryptedCredential]
  | _ => []

/-- A complete event has a type. -/
theorem Complete.kind_ne_empty {e : Event} (h : e.Complete) : e.kind ≠ "" := by
  cases e with
  | unknown kind => exact h.1
  | _ => simp [kind]

/-! ## Members of events -/

/-- A member of the data of an event is found by its name. -/
theorem get?_toData (e : Event) (timestamp key : String) :
    (e.toData timestamp).get? key =
      ([("type", Value.string e.kind), ("timestamp", .string timestamp)] ++
        e.body).reverse.lookup key :=
  Members.get?_ofList _ key

section Fields

variable {α : Type} {item? : Document → Option α} {data : Members} {key : String}

/-- A member that is read, or refused for its form. -/
def accepted (key : String) : Option α → Except DecodeError (Option α)
  | some a => .ok (some a)
  | none => .error (.invalidField key)

/-- An array or an object is what it is. -/
theorem optionalField_of_isContainer {v : Value} (hget : data.get? key = some v)
    (hv : v.isContainer = true) :
    optionalField item? data key = accepted key (item? (.ofValue v)) := by
  cases v with
  | array items =>
    simp only [optionalField, hget]
    cases item? (.ofValue (.array items)) <;> rfl
  | object members =>
    simp only [optionalField, hget]
    cases item? (.ofValue (.object members)) <;> rfl
  | _ => cases hv

theorem optionalField_of_embedded {v : Value} {a : α} (hget : data.get? key = some v)
    (hv : v.isContainer = true) (hread : item? (.ofValue v) = some a) :
    optionalField item? data key = .ok (some a) := by
  rw [optionalField_of_isContainer hget hv, hread]
  rfl

/-- An embedded model is read as the model. -/
theorem field_of_embedded {v : Value} {a : α} (hget : data.get? key = some v)
    (hv : v.isContainer = true) (hread : item? (.ofValue v) = some a) :
    field item? data key = .ok a := by
  simp only [field, optionalField_of_embedded hget hv hread]

/-- A text that quotes no text is read as it is. -/
theorem field_text_of_not_isQuoted {s : String} (hget : data.get? key = some (.string s))
    (hs : ¬ IsQuoted s) : field Document.text? data key = .ok s := by
  -- whatever the text may hold, it is not a text that denotes something
  have hnested : (Document.read? s).bind Document.text? = none := by
    cases hread : Document.read? s with
    | none => rfl
    | some doc =>
      cases doc with
      | string text =>
        cases text with
        | none => rfl
        | some text => exact absurd ⟨text, read?_eq_string_iff.mp hread⟩ hs
      | _ => rfl
  simp [field, optionalField, hget, hnested, Document.ofValue, Document.text?]

/-- A text that quotes another is read as the other. -/
theorem field_text_of_quotes {s text : String} (hget : data.get? key = some (.string s))
    (hs : Quotes s text) : field Document.text? data key = .ok text := by
  have hnested : (Document.read? s).bind Document.text? = some text := by
    rw [read?_eq_string_iff.mpr hs]
    rfl
  simp only [field, optionalField, hget, hnested]

/-- A text member is read as it is exactly when it quotes no text. -/
theorem field_text_eq_ok_iff {s : String} (hget : data.get? key = some (.string s)) :
    field Document.text? data key = .ok s ↔ ¬ IsQuoted s := by
  constructor
  · -- what a text quotes is never the text itself
    intro hfield hparts
    obtain ⟨text, hquotes⟩ := hparts
    rw [field_text_of_quotes hget hquotes] at hfield
    exact hquotes.ne (Except.ok.inj hfield)
  · exact field_text_of_not_isQuoted hget

end Fields

/-- What is not blank is let through. -/
theorem nonEmpty_of_not_isBlank {name value : String} (h : ¬ Text.isBlank value) :
    nonEmpty name value = .ok () :=
  if_neg h

theorem ok_bind {α β : Type} (a : α) (f : α → Except DecodeError β) :
    (Except.ok a >>= f) = f a := rfl

/-- A reader of several members succeeds where each of its steps does. -/
theorem bind_eq_ok_iff {α β : Type} {x : Except DecodeError α} {f : α → Except DecodeError β}
    {b : β} : (x >>= f) = .ok b ↔ ∃ a, x = .ok a ∧ f a = .ok b := by
  cases x with
  | error e => exact ⟨fun h => (nomatch h), fun ⟨_, h, _⟩ => (nomatch h)⟩
  | ok a =>
    constructor
    · intro h
      exact ⟨a, rfl, h⟩
    · intro hparts
      obtain ⟨a', ha, h⟩ := hparts
      cases ha
      exact h

/-! ## Reading what was written -/

/-- The data of an event is read as the type it names. -/
theorem decode_toData {e : Event} (he : e.Complete) (timestamp : String) :
    decode (e.toData timestamp) = decodeAs e.kind (e.toData timestamp) := by
  have htype : (e.toData timestamp).get? "type" = some (.string e.kind) := by
    rw [get?_toData]
    cases e <;> rfl
  unfold decode
  rw [htype]
  exact if_neg he.kind_ne_empty

section Shapes

variable (timestamp : String)

theorem decodeAs_hostConnect {host : HostModel} (h : ¬ Text.isBlank host.id) :
    decodeAs "host_connect" ((hostConnect host).toData timestamp) = .ok (hostConnect host) := by
  have hget := get?_toData (hostConnect host) timestamp "host"
  have hhost := field_of_embedded hget rfl host.ofDocument?_toValue
  unfold decodeAs
  simp only [hhost, ok_bind, nonEmpty_of_not_isBlank h, reduceIte]
  rfl

/-- A welcome is read back, with both of its lists. -/
theorem decodeAs_hostWelcome {host : HostModel} (plugins : List Plugin) (agents : List AgentModel)
    (h : ¬ Text.isBlank host.id) :
    decodeAs "host_welcome" ((hostWelcome host plugins agents).toData timestamp) =
      .ok (hostWelcome host plugins agents) := by
  have hget := get?_toData (hostWelcome host plugins agents) timestamp
  have hhost := field_of_embedded (hget "host") rfl host.ofDocument?_toValue
  have hplugins := optionalField_of_embedded (hget "plugins") rfl
    (Plugin.listOfDocument?_listToValue plugins)
  have hagents := optionalField_of_embedded (hget "agents") rfl
    (AgentModel.listOfDocument?_listToValue agents)
  unfold decodeAs
  simp only [hhost, hplugins, hagents, ok_bind, nonEmpty_of_not_isBlank h,
    String.reduceEq, reduceIte]
  rfl

theorem decodeAs_agentConnect {agent : AgentModel} (h : ¬ Text.isBlank agent.id) :
    decodeAs "agent_connect" ((agentConnect agent).toData timestamp) =
      .ok (agentConnect agent) := by
  have hget := get?_toData (agentConnect agent) timestamp "agent"
  have hagent := field_of_embedded hget rfl agent.ofDocument?_toValue
  unfold decodeAs
  simp only [hagent, ok_bind, nonEmpty_of_not_isBlank h, String.reduceEq, reduceIte]
  rfl

/-- An agent to stop is read back unless its id quotes a text. -/
theorem decodeAs_agentDisconnect_iff {agentId : String} (h : ¬ Text.isBlank agentId) :
    decodeAs "agent_disconnect" ((agentDisconnect agentId).toData timestamp) =
      .ok (agentDisconnect agentId) ↔ ¬ IsQuoted agentId := by
  have hfield := field_text_eq_ok_iff (get?_toData (agentDisconnect agentId) timestamp "agent_id")
  unfold decodeAs
  simp only [String.reduceEq, reduceIte]
  rw [← hfield]
  constructor
  · intro hdecode
    obtain ⟨a, ha, hrest⟩ := bind_eq_ok_iff.mp hdecode
    obtain ⟨-, -, hret⟩ := bind_eq_ok_iff.mp hrest
    cases hret
    exact ha
  · intro hid
    rw [hid]
    exact bind_eq_ok_iff.mpr ⟨agentId, rfl, bind_eq_ok_iff.mpr
      ⟨(), nonEmpty_of_not_isBlank h, rfl⟩⟩

/-- A request is read back unless its id or its name quotes a text. -/
theorem decodeAs_credentialRequest_iff {agentId credentialName : String} (jwk : Jwk)
    (hid : ¬ Text.isBlank agentId) (hname : ¬ Text.isBlank credentialName) :
    decodeAs "credential_request"
        ((credentialRequest agentId credentialName jwk).toData timestamp) =
      .ok (credentialRequest agentId credentialName jwk) ↔
      ¬ IsQuoted agentId ∧ ¬ IsQuoted credentialName := by
  have hget := get?_toData (credentialRequest agentId credentialName jwk) timestamp
  have hjwk := field_of_embedded (hget "jwk") rfl jwk.ofDocument?_toValue
  unfold decodeAs
  simp only [hjwk, String.reduceEq, reduceIte]
  rw [← field_text_eq_ok_iff (hget "agent_id"), ← field_text_eq_ok_iff (hget "credential_name")]
  constructor
  · intro hdecode
    obtain ⟨a, ha, hrest⟩ := bind_eq_ok_iff.mp hdecode
    obtain ⟨n, hn, hrest⟩ := bind_eq_ok_iff.mp hrest
    obtain ⟨-, -, hrest⟩ := bind_eq_ok_iff.mp hrest
    obtain ⟨-, -, hret⟩ := bind_eq_ok_iff.mp hrest
    cases hret
    exact ⟨ha, hn⟩
  · intro hparts
    obtain ⟨ha, hn⟩ := hparts
    rw [ha, hn]
    exact bind_eq_ok_iff.mpr ⟨agentId, rfl, bind_eq_ok_iff.mpr ⟨credentialName, rfl,
      bind_eq_ok_iff.mpr ⟨(), nonEmpty_of_not_isBlank hid, bind_eq_ok_iff.mpr
        ⟨(), nonEmpty_of_not_isBlank hname, rfl⟩⟩⟩⟩

/-- What is read from a request is a request of an id that is not blank, and not of its agent if the
id of the agent quotes a text. -/
theorem eq_credentialRequest_of_decode {agentId credentialName : String} {jwk : Jwk} {e : Event}
    (hdecode : decode ((credentialRequest agentId credentialName jwk).toData timestamp) = .ok e) :
    ∃ agentId' credentialName' jwk', e = credentialRequest agentId' credentialName' jwk' ∧
      ¬ Text.isBlank agentId' ∧ (agentId' = agentId → ¬ IsQuoted agentId) := by
  have hget := get?_toData (credentialRequest agentId credentialName jwk) timestamp
  have htype : ((credentialRequest agentId credentialName jwk).toData timestamp).get? "type" =
      some (.string "credential_request") := hget "type"
  unfold decode decodeAs at hdecode
  simp only [htype, String.reduceEq, reduceIte] at hdecode
  -- the fields are read one after another; the id of the agent comes first
  obtain ⟨agentId', hagent, hrest⟩ := bind_eq_ok_iff.mp hdecode
  obtain ⟨credentialName', -, hrest⟩ := bind_eq_ok_iff.mp hrest
  obtain ⟨⟨⟩, hnonEmpty, hrest⟩ := bind_eq_ok_iff.mp hrest
  obtain ⟨-, -, hrest⟩ := bind_eq_ok_iff.mp hrest
  obtain ⟨jwk', -, hret⟩ := bind_eq_ok_iff.mp hrest
  cases hret
  refine ⟨agentId', credentialName', jwk', rfl, fun hblank => ?_, ?_⟩
  · unfold nonEmpty at hnonEmpty
    rw [if_pos hblank] at hnonEmpty
    cases hnonEmpty
  · rintro rfl
    exact (field_text_eq_ok_iff (hget "agent_id")).mp hagent

/-- An answer is read back unless its name or its credential quotes a text. -/
theorem decodeAs_credentialResponse_iff {credentialName : String} (encryptedCredential : String)
    (h : ¬ Text.isBlank credentialName) :
    decodeAs "credential_response"
        ((credentialResponse credentialName encryptedCredential).toData timestamp) =
      .ok (credentialResponse credentialName encryptedCredential) ↔
      ¬ IsQuoted credentialName ∧ ¬ IsQuoted encryptedCredential := by
  have hget := get?_toData (credentialResponse credentialName encryptedCredential) timestamp
  unfold decodeAs
  simp only [String.reduceEq, reduceIte]
  rw [← field_text_eq_ok_iff (hget "credential_name"),
    ← field_text_eq_ok_iff (hget "encrypted_credential")]
  -- a field that is read back unchanged is no quoted text, and that is all it takes
  constructor
  · intro hdecode
    obtain ⟨n, hn, hrest⟩ := bind_eq_ok_iff.mp hdecode
    obtain ⟨-, -, hrest⟩ := bind_eq_ok_iff.mp hrest
    obtain ⟨c, hc, hret⟩ := bind_eq_ok_iff.mp hrest
    cases hret
    exact ⟨hn, hc⟩
  · intro hparts
    obtain ⟨hn, hc⟩ := hparts
    rw [hn, hc]
    exact bind_eq_ok_iff.mpr ⟨credentialName, rfl, bind_eq_ok_iff.mpr
      ⟨(), nonEmpty_of_not_isBlank h, rfl⟩⟩

/-- An answer for a name that quotes a text is read as an answer for that text. -/
theorem decode_credentialResponse_of_quotes {credentialName text encryptedCredential : String}
    (hquotes : Quotes credentialName text) (hname : ¬ Text.isBlank credentialName)
    (htext : ¬ Text.isBlank text) (hcredential : ¬ IsQuoted encryptedCredential) :
    decode ((credentialResponse credentialName encryptedCredential).toData timestamp) =
      .ok (credentialResponse text encryptedCredential) := by
  have hget := get?_toData (credentialResponse credentialName encryptedCredential) timestamp
  have hcomplete : (credentialResponse credentialName encryptedCredential).Complete := hname
  rw [decode_toData hcomplete]
  unfold decodeAs
  simp only [kind, String.reduceEq, reduceIte]
  rw [field_text_of_quotes (hget "credential_name") hquotes,
    field_text_of_not_isQuoted (hget "encrypted_credential") hcredential]
  exact bind_eq_ok_iff.mpr ⟨text, rfl, bind_eq_ok_iff.mpr
    ⟨(), nonEmpty_of_not_isBlank htext, rfl⟩⟩

theorem decodeAs_unknown {kind : String} (h : kind ∉ knownKinds) (data : Members) :
    decodeAs kind data = .ok (unknown kind) := by
  simp only [knownKinds, List.mem_cons, List.not_mem_nil, or_false, not_or] at h
  unfold decodeAs
  simp only [h, if_false]

end Shapes

/-- **An event is read back from its data** exactly when none of its texts quotes another. -/
theorem decode_toData_eq_ok_iff {e : Event} (he : e.Complete) (timestamp : String) :
    decode (e.toData timestamp) = .ok e ↔ ∀ s ∈ e.textFields, ¬ IsQuoted s := by
  rw [decode_toData he]
  -- an event without text members is always read back
  cases e with
  | hostConnect host =>
    simp only [kind, decodeAs_hostConnect timestamp he, textFields, List.not_mem_nil,
      false_imp_iff, implies_true]
  | hostWelcome host plugins agents =>
    simp only [kind, decodeAs_hostWelcome timestamp plugins agents he, textFields,
      List.not_mem_nil, false_imp_iff, implies_true]
  | agentConnect agent =>
    simp only [kind, decodeAs_agentConnect timestamp he, textFields, List.not_mem_nil,
      false_imp_iff, implies_true]
  | agentDisconnect agentId =>
    simp only [kind, decodeAs_agentDisconnect_iff timestamp he, textFields,
      List.forall_mem_singleton]
  | credentialRequest agentId credentialName jwk =>
    simp only [kind, decodeAs_credentialRequest_iff timestamp jwk he.1 he.2, textFields,
      List.forall_mem_cons, List.not_mem_nil, false_imp_iff, implies_true, and_true]
  | credentialResponse credentialName encryptedCredential =>
    simp only [kind, decodeAs_credentialResponse_iff timestamp encryptedCredential he, textFields,
      List.forall_mem_cons, List.not_mem_nil, false_imp_iff, implies_true, and_true]
  | unknown kind =>
    simp only [Event.kind, decodeAs_unknown he.2, textFields, List.not_mem_nil, false_imp_iff,
      implies_true]

/-! ## Over the wire -/

/-- The data of an event is not nested too deeply to be read. -/
theorem readable_toData (e : Event) (timestamp : String) :
    (Value.object (e.toData timestamp)).Readable Document.depthLimit := by
  -- no member of an event nests deeper than a host with its plugins
  have hbody : ∀ m ∈ e.body, m.2.Readable 7 := by
    cases e with
    | hostConnect host =>
      simp only [body, List.forall_mem_singleton]
      exact host.readable_toValue
    | hostWelcome host plugins agents =>
      simp only [body, List.forall_mem_cons, List.not_mem_nil, false_imp_iff, implies_true,
        and_true]
      exact ⟨host.readable_toValue,
        (Value.Readable.array_map Plugin.readable_toValue plugins).mono (by omega),
        (Value.Readable.array_map AgentModel.readable_toValue agents).mono (by omega)⟩
    | agentConnect agent =>
      simp only [body, List.forall_mem_singleton]
      exact agent.readable_toValue.mono (by omega)
    | agentDisconnect agentId =>
      simp only [body, List.forall_mem_singleton]
      exact .string
    | credentialRequest agentId credentialName jwk =>
      simp only [body, List.forall_mem_cons, List.not_mem_nil, false_imp_iff, implies_true,
        and_true]
      exact ⟨.string, .string, jwk.readable_toValue.mono (by omega)⟩
    | credentialResponse credentialName encryptedCredential =>
      simp only [body, List.forall_mem_cons, List.not_mem_nil, false_imp_iff, implies_true,
        and_true]
      exact ⟨.string, .string⟩
    | unknown kind =>
      intro m hm
      cases hm
  have hdata : (Value.ofMembers ([("type", .string e.kind), ("timestamp", .string timestamp)] ++
      e.body)).Readable 8 := by
    refine .ofMembers fun m hm => ?_
    simp only [List.mem_append, List.mem_cons, List.not_mem_nil, or_false] at hm
    rcases hm with (rfl | rfl) | hm
    · exact .string
    · exact .string
    · exact hbody m hm
  exact hdata.mono (by decide)

end Event

/-- **Events over the wire.**  A complete event is read from the message that carries it exactly
when none of its own texts is the JSON of a text, and the message still names its sender. -/
theorem Message.decode_ofWire_payload {e : Event} (he : e.Complete) (topic timestamp : String) :
    let sent := Message.ofData topic (e.toData timestamp)
    let got := Message.ofWire topic .event sent.payload
    (got.decode = .ok e ↔ ∀ s ∈ e.textFields, ¬ IsQuoted s) ∧ got.senderId = sent.senderId := by
  intro sent got
  have hgot : got.decode = Event.decode (e.toData timestamp) := by
    have hdata : got.data = some (e.toData timestamp) :=
      Members.ofBytes?_toBytes (e.readable_toData timestamp)
    have hkind : got.kind = .event := rfl
    unfold Message.decode
    rw [if_pos hkind, hdata]
  rw [hgot]
  exact ⟨Event.decode_toData_eq_ok_iff he timestamp, rfl⟩

/-- A request for a credential whose name begins with a quote that nothing closes. -/
theorem Message.decode_ofWire_payload_request :
    let e := Event.credentialRequest "agent 1" "\"api" { kty := "RSA", n := "AQAB", e := "AQAB" }
    let sent := Message.ofData "event/host 1/auth/-/agent 1" (e.toData "now")
    let got := Message.ofWire "event/host 1/auth/-/agent 1" .event sent.payload
    e.Complete ∧ (∀ s ∈ e.textFields, ¬ IsQuoted s) ∧ got.decode = .ok e ∧
      got.senderId = sent.senderId := by
  intro e sent got
  have he : e.Complete := by decide
  have htexts : ∀ s ∈ e.textFields, ¬ IsQuoted s := by
    have hnone : ∀ s ∈ e.textFields, Document.read? s = none := by decide +kernel
    intro s hs hparts
    obtain ⟨text, hquotes⟩ := hparts
    rw [← read?_eq_string_iff, hnone s hs] at hquotes
    cases hquotes
  have hwire := decode_ofWire_payload he "event/host 1/auth/-/agent 1" "now"
  exact ⟨he, htexts, hwire.1.mpr htexts, hwire.2⟩

end Coordination
