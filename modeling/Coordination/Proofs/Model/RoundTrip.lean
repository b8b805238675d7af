import Coordination.Proofs.Json.RoundTrip
import Coordination.Model.Json
/-!
# Models read back

Every model that an event carries is read from the object that writes it.  An absent optional field
is left out in writing and found absent in reading; no field falls back on its default.
-/

namespace Coordination

open Json Json.Document

/-! ## Fields -/

/-- A record is read from its written fields. -/
theorem bind_fields?_ofMembers {α : Type} {names : List String} {l : List (String × Value)}
    {read : List (String × Document) → Option α} {a : α}
    (h : ∀ fields : List (String × Document),
      (∀ name ∈ names, fields.lookup name = (l.reverse.lookup name).map ofValue) →
      read fields = some a) :
    (fields? names (.ofValue (.ofMembers l))).bind read = some a := by
  obtain ⟨fields, hfields, hlookup⟩ := fields?_ofMembers names l
  rw [hfields, Option.bind_some]
  exact h fields hlookup

theorem listOf?_ofItems {α : Type} {toValue : α → Value} {item? : Document → Option α}
    (h : ∀ a, item? (.ofValue (toValue a)) = some a) (as : List α) :
    listOf? item? (.array (ofItems (as.map toValue))) = some as := by
  rw [listOf?]
  induction as with
  | nil => rfl
  | cons a as ih =>
    rw [List.map_cons, ofItems, List.mapM_cons, h a, ih]
    rfl

/-! ## Models

The fields are looked up one by one; an optional field is there or not, hence the cases. -/

theorem Parameter.ofDocument?_toValue (p : Parameter) :
    ofDocument? (.ofValue p.toValue) = some p := by
  unfold ofDocument? toValue
  refine bind_fields?_ofMembers fun fields hlookup => ?_
  simp [required, orElse, hlookup, List.lookup_cons, ofValue, text?]

theorem Function.ofDocument?_toValue (f : Function) :
    ofDocument? (.ofValue f.toValue) = some f := by
  have hparameters := listOf?_ofItems Parameter.ofDocument?_toValue
  obtain ⟨id, name, description, inputs, outputs⟩ := f
  unfold ofDocument? toValue
  refine bind_fields?_ofMembers fun fields hlookup => ?_
  cases id <;>
    simp [required, Document.optional, orElse, optionOf?, hlookup, List.lookup_cons, ofValue, text?,
      Value.member?, hparameters]

theorem Plugin.ofDocument?_toValue (p : Plugin) :
    ofDocument? (.ofValue p.toValue) = some p := by
  have hfunctions := listOf?_ofItems Function.ofDocument?_toValue
  obtain ⟨id, uniqueName, name, description, functions⟩ := p
  unfold ofDocument? toValue
  refine bind_fields?_ofMembers fun fields hlookup => ?_
  cases id <;> cases uniqueName <;>
    simp [required, Document.optional, orElse, optionOf?, hlookup, List.lookup_cons, ofValue, text?,
      Value.member?, hfunctions]

theorem Plugin.listOfDocument?_listToValue (ps : List Plugin) :
    listOfDocument? (.ofValue (listToValue ps)) = some ps := by
  rw [listToValue, ofValue]
  exact listOf?_ofItems ofDocument?_toValue ps

theorem HostModel.ofDocument?_toValue (h : HostModel) :
    ofDocument? (.ofValue h.toValue) = some h := by
  have hplugins := listOf?_ofItems Plugin.ofDocument?_toValue
  unfold ofDocument? toValue
  refine bind_fields?_ofMembers fun fields hlookup => ?_
  simp [required, orElse, hlookup, List.lookup_cons, ofValue, text?, Plugin.listOfDocument?,
    Plugin.listToValue, hplugins]

theorem AgentModel.ofDocument?_toValue (a : AgentModel) :
    ofDocument? (.ofValue a.toValue) = some a := by
  obtain ⟨id, name, description, hostId, isEnabled⟩ := a
  unfold ofDocument? toValue
  refine bind_fields?_ofMembers fun fields hlookup => ?_
  cases hostId <;>
    simp [required, Document.optional, orElse, optionOf?, hlookup, List.lookup_cons, ofValue, text?,
      bool?, Value.member?]

theorem AgentModel.listOfDocument?_listToValue (as : List AgentModel) :
    listOfDocument? (.ofValue (listToValue as)) = some as := by
  rw [listToValue, ofValue]
  exact listOf?_ofItems ofDocument?_toValue as

theorem Jwk.ofDocument?_toValue (k : Jwk) : ofDocument? (.ofValue k.toValue) = some k := by
  obtain ⟨kty, n, e, kid, alg⟩ := k
  unfold ofDocument? toValue
  refine bind_fields?_ofMembers fun fields hlookup => ?_
  cases kid <;> cases alg <;>
    simp [required, Document.optional, orElse, optionOf?, hlookup, List.lookup_cons, ofValue, text?,
      Value.member?]

/-! ## Depth

A model is as deep as its lists are nested: parameters stand in functions, functions in plugins, and
plugins in hosts. -/

/-- A list of items that read back reads back. -/
theorem Json.Value.Readable.array_map {α : Type} {toValue : α → Value} {depth : Nat}
    (h : ∀ a, (toValue a).Readable depth) (as : List α) :
    (Value.array (as.map toValue)).Readable (depth + 1) := by
  refine .array fun v hv => ?_
  obtain ⟨a, -, rfl⟩ := List.mem_map.mp hv
  exact h a

/-- An optional text is a text where there is one. -/
theorem readable_of_mem_member? {key : String} {s : Option String} {m : String × Value}
    (h : m ∈ Value.member? key s) {depth : Nat} : m.2.Readable depth := by
  cases s with
  | none => cases h
  | some s =>
    rw [List.mem_singleton.mp h]
    exact .string

theorem Parameter.readable_toValue (p : Parameter) : p.toValue.Readable 1 := by
  refine .ofMembers fun m hm => ?_
  simp only [List.mem_cons, List.not_mem_nil, or_false] at hm
  rcases hm with rfl | rfl | rfl <;> exact .string

theorem Function.readable_toValue (f : Function) : f.toValue.Readable 3 := by
  refine .ofMembers fun m hm => ?_
  simp only [List.mem_append, List.mem_cons, List.not_mem_nil, or_false] at hm
  rcases hm with hm | rfl | rfl | rfl | rfl
  · exact readable_of_mem_member? hm
  · exact .string
  · exact .string
  · exact .array_map Parameter.readable_toValue _
  · exact .array_map Parameter.readable_toValue _

theorem Plugin.readable_toValue (p : Plugin) : p.toValue.Readable 5 := by
  refine .ofMembers fun m hm => ?_
  simp only [List.mem_append, List.mem_cons, List.not_mem_nil, or_false] at hm
  rcases hm with (hm | hm) | rfl | rfl | rfl
  · exact readable_of_mem_member? hm
  · exact readable_of_mem_member? hm
  · exact .string
  · exact .string
  · exact .array_map Function.readable_toValue _

theorem HostModel.readable_toValue (h : HostModel) : h.toValue.Readable 7 := by
  refine .ofMembers fun m hm => ?_
  simp only [List.mem_cons, List.not_mem_nil, or_false] at hm
  rcases hm with rfl | rfl | rfl
  · exact .string
  · exact .string
  · exact .array_map Plugin.readable_toValue _

theorem AgentModel.readable_toValue (a : AgentModel) : a.toValue.Readable 1 := by
  refine .ofMembers fun m hm => ?_
  simp only [List.mem_append, List.mem_cons, List.not_mem_nil, or_false] at hm
  rcases hm with ((rfl | rfl | rfl) | hm) | rfl
  · exact .string
  · exact .string
  · exact .string
  · exact readable_of_mem_member? hm
  · exact .bool

theorem Jwk.readable_toValue (k : Jwk) : k.toValue.Readable 1 := by
  refine .ofMembers fun m hm => ?_
  simp only [List.mem_append, List.mem_cons, List.not_mem_nil, or_false] at hm
  rcases hm with ((rfl | rfl | rfl) | hm) | hm
  · exact .string
  · exact .string
  · exact .string
  · exact readable_of_mem_member? hm
  · exact readable_of_mem_member? hm

end Coordination
