import Coordination.Proofs.Event.RoundTrip
import Coordination.Proofs.Json.Finite
import Coordination.Proofs.Model.Numbers
/-!
# Embedded members and members as text

A structured member may be embedded in the data of an event or be a text that holds its JSON, and
readers make no difference: whether the member is a model, has the wrong form or has members that
nobody knows, the event is the same, or the same member is refused for the same reason.
-/

namespace Coordination

open Json

namespace Event

/-! ## Members as text -/

/-- The members of events that are models or lists of models. -/
def structuredFields : List String := ["host", "plugins", "agents", "agent", "jwk"]

/-- A value as a text that holds its JSON, if it is an array or an object. -/
def encoded (v : Value) : Value :=
  if v.isContainer then .string v.render else v

/-- The data in which each member of the given names is a text, if it was an array or an object. -/
def encodeFields (names : List String) (data : Members) : Members :=
  data.map fun m => (m.1, if names.contains m.1 then encoded m.2 else m.2)

theorem get?_encodeFields (names : List String) (data : Members) (key : String) :
    (encodeFields names data).get? key =
      (data.get? key).map fun v => if names.contains key then encoded v else v := by
  induction data with
  | nil => rfl
  | cons m data ih =>
    obtain ⟨k, v⟩ := m
    rw [encodeFields, List.map_cons, Members.get?, Members.get?]
    by_cases hkey : k = key
    · rw [if_pos hkey, if_pos hkey, hkey]
      rfl
    · rw [if_neg hkey, if_neg hkey]
      exact ih

/-- A member of another name stays as it is. -/
theorem get?_encodeFields_of_notMem {names : List String} {key : String} (h : key ∉ names)
    (data : Members) : (encodeFields names data).get? key = data.get? key := by
  have hother : names.contains key = false := by simpa using h
  rw [get?_encodeFields, hother]
  simp

/-! ## Structured members -/

/-- A reader of records or lists: it knows no numbers, and a text is none. -/
structure IsStructured {α : Type} (item? : Document → Option α) : Prop where
  ignoresNumbers : IgnoresNumbers item?
  text_eq_none : ∀ s, item? (.string s) = none

theorem isStructured_host : IsStructured HostModel.ofDocument? :=
  ⟨HostModel.ignoresNumbers, fun _ => rfl⟩

theorem isStructured_plugins : IsStructured Plugin.listOfDocument? :=
  ⟨Plugin.listIgnoresNumbers, fun _ => rfl⟩

theorem isStructured_agents : IsStructured AgentModel.listOfDocument? :=
  ⟨AgentModel.listIgnoresNumbers, fun _ => rfl⟩

theorem isStructured_agent : IsStructured AgentModel.ofDocument? :=
  ⟨AgentModel.ignoresNumbers, fun _ => rfl⟩

theorem isStructured_jwk : IsStructured Jwk.ofDocument? :=
  ⟨Jwk.ignoresNumbers, fun _ => rfl⟩

section Fields

variable {α : Type} {item? : Document → Option α} {data data' : Members} {key : String}

/-- A member is read from its value alone. -/
theorem optionalField_congr (h : data'.get? key = data.get? key) :
    optionalField item? data' key = optionalField item? data key := by
  unfold optionalField
  rw [h]

/-- A text that is no member itself is what it holds. -/
theorem optionalField_of_text {s : String} (hget : data.get? key = some (.string s))
    (hs : item? (.string (some s)) = none) :
    optionalField item? data key = accepted key ((Document.read? s).bind item?) := by
  simp only [optionalField, hget, Document.ofValue, hs]
  cases (Document.read? s).bind item? <;> rfl

/-- **A structured member is read alike** embedded and as text. -/
theorem IsStructured.optionalField_encoded (hitem : IsStructured item?) {v : Value}
    (hv : v.IsFinite) (hget : data.get? key = some v) (hget' : data'.get? key = some (encoded v)) :
    optionalField item? data' key = optionalField item? data key := by
  cases hcontainer : v.isContainer with
  | false =>
    rw [encoded, hcontainer] at hget'
    exact optionalField_congr (hget'.trans hget.symm)
  | true =>
    rw [encoded, hcontainer, if_pos rfl] at hget'
    calc optionalField item? data' key
        = accepted key ((Document.read? v.render).bind item?) :=
          optionalField_of_text hget' (hitem.text_eq_none _)
      _ = accepted key (item? (v.document Number.denoted)) := by
          rw [hv.read?_render, Option.bind_some]
      _ = accepted key (item? (.ofValue v)) := by rw [hitem.ignoresNumbers.document_eq]
      _ = optionalField item? data key := (optionalField_of_isContainer hget hcontainer).symm

/-- A structured member is read alike whichever members are texts. -/
theorem IsStructured.optionalField_encodeFields (hitem : IsStructured item?)
    (hdata : ∀ m ∈ data, m.2.IsFinite) (names : List String) :
    optionalField item? (encodeFields names data) key = optionalField item? data key := by
  have hget' := get?_encodeFields names data key
  cases hget : data.get? key with
  | none => exact optionalField_congr (by rw [hget', hget, Option.map_none])
  | some v =>
    rw [hget, Option.map_some] at hget'
    split at hget'
    · exact hitem.optionalField_encoded (hdata _ (Members.mem_of_get? hget)) hget hget'
    · exact optionalField_congr (hget'.trans hget.symm)

theorem IsStructured.field_encodeFields (hitem : IsStructured item?)
    (hdata : ∀ m ∈ data, m.2.IsFinite) (names : List String) :
    field item? (encodeFields names data) key = field item? data key := by
  unfold field
  rw [hitem.optionalField_encodeFields hdata]

/-- A member that is no structured one stays as it is. -/
theorem field_encodeFields_of_notMem {names : List String} (h : key ∉ names) :
    field item? (encodeFields names data) key = field item? data key := by
  unfold field
  rw [optionalField_congr (get?_encodeFields_of_notMem h data)]

end Fields

/-! ## Events -/

/-- An event of any type is read alike whichever of its structured members are texts. -/
theorem decodeAs_encodeFields {names : List String} (hnames : names ⊆ structuredFields)
    {data : Members} (hdata : ∀ m ∈ data, m.2.IsFinite) (kind : String) :
    decodeAs kind (encodeFields names data) = decodeAs kind data := by
  -- ids and names are no structured members, so they are not turned into other texts
  have htext : ∀ key, key ∉ structuredFields →
      field Document.text? (encodeFields names data) key = field Document.text? data key :=
    fun key hkey => field_encodeFields_of_notMem fun hmem => hkey (hnames hmem)
  unfold decodeAs
  rw [isStructured_host.field_encodeFields hdata,
    isStructured_plugins.optionalField_encodeFields hdata,
    isStructured_agents.optionalField_encodeFields hdata,
    isStructured_agent.field_encodeFields hdata, isStructured_jwk.field_encodeFields hdata,
    htext "agent_id" (by decide), htext "credential_name" (by decide),
    htext "encrypted_credential" (by decide)]

/-- Data of finite numbers is read alike whichever of its structured members are texts. -/
theorem decode_encodeFields_of_isFinite {names : List String} (hnames : names ⊆ structuredFields)
    {data : Members} (hdata : ∀ m ∈ data, m.2.IsFinite) :
    decode (encodeFields names data) = decode data := by
  -- nor is the name of the event
  have htype : "type" ∉ names := by
    intro hmem
    exact absurd (hnames hmem) (by decide)
  unfold decode
  rw [get?_encodeFields_of_notMem htype]
  split
  · rw [decodeAs_encodeFields hnames hdata]
  · rfl

/-- **Embedded members and members as text are the same event.**  Whichever of the structured
members of the data are turned from arrays and objects into texts that hold their JSON, reading the
data gives the same event or the same error.  A number of the data is finite, as the format has no
others, and so is every number of a payload that was read. -/
theorem decode_encodeFields {names : List String} (hnames : names ⊆ structuredFields)
    (data : Members) :
    ((∀ m ∈ data, m.2.IsFinite) → decode (encodeFields names data) = decode data) ∧
    ∀ payload, Members.ofBytes? payload = some data →
      decode (encodeFields names data) = decode data := by
  constructor
  · exact decode_encodeFields_of_isFinite hnames
  · intro payload hread
    exact decode_encodeFields_of_isFinite hnames (Members.isFinite_of_ofBytes? hread)

/-- A welcome whose host has a number that nobody asked for, and one of whose plugins has no
name. -/
theorem decode_encodeFields_nameless_plugin :
    let host : Members := [("id", .string "h"), ("load", .number (.binary ⟨0x3ff8000000000000⟩))]
    let data : Members := [("host", .object host), ("plugins", .array [.object []]),
      ("type", .string "host_welcome")]
    let payload := ("\x7b\"host\":\x7b\"id\":\"h\",\"load\":1.5\x7d," ++
      "\"plugins\":[\x7b\x7d],\"type\":\"host_welcome\"\x7d").toUTF8
    (∀ m ∈ data, m.2.IsFinite) ∧
    (encodeFields ["host", "plugins"] data).get? "host" =
      some (.string "\x7b\"id\":\"h\",\"load\":1.5\x7d") ∧
    decode (encodeFields ["host", "plugins"] data) = .error (.invalidField "plugins") ∧
    ∃ data', Members.ofBytes? payload = some data' ∧
      decode (encodeFields ["host", "plugins"] data') = .error (.invalidField "plugins") := by
  intro host data payload
  have hnames : ["host", "plugins"] ⊆ structuredFields := by decide
  -- every number of the data is finite, the one inside the host included
  have hfinite : ∀ m ∈ data, m.2.IsFinite := by
    intro m hm
    simp only [data, List.mem_cons, List.not_mem_nil, or_false] at hm
    rcases hm with rfl | rfl | rfl
    · refine .object fun m hm => ?_
      simp only [host, List.mem_cons, List.not_mem_nil, or_false] at hm
      rcases hm with rfl | rfl
      · exact .string
      · exact .number (by decide : Decimal.Binary64.isFinite _ = true)
    · exact .array fun v hv => List.mem_singleton.mp hv ▸ .object (by simp)
    · exact .string
  have htext : (Value.object host).render = "\x7b\"id\":\"h\",\"load\":1.5\x7d" := by
    decide +kernel
  have hread : (Members.ofBytes? payload).map decode =
      some (.error (.invalidField "plugins")) := by decide +kernel
  obtain ⟨data', hdata', herror⟩ := Option.map_eq_some_iff.mp hread
  refine ⟨hfinite, ?_, ?_, data', hdata', ?_⟩
  · rw [← htext]
    rfl
  · rw [(decode_encodeFields hnames data).1 hfinite]
    rfl
  · rw [(decode_encodeFields hnames data').2 payload hdata', herror]

end Event

end Coordination
