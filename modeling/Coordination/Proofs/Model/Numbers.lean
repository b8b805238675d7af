import Coordination.Proofs.Json.Numerals
import Coordination.Model.Json
/-!
# Models know no numbers

No field of what an event carries is a number, so numbers stand in a model only where its reader
skips them.  Such a reader takes documents that differ in numbers alone for the same, and a value is
read as well from its text as from itself.
-/

namespace Coordination.Json

open Document

/-! ## Documents without their numbers -/

mutual

/-- The document in which no number denotes anything. -/
def Document.withoutNumbers : Document → Document
  | .null => .null
  | .bool b => .bool b
  | .number _ => .number none
  | .string s => .string s
  | .array items => .array (itemsWithoutNumbers items)
  | .object members => .object (membersWithoutNumbers members)

def itemsWithoutNumbers : List Document → List Document
  | [] => []
  | doc :: docs => doc.withoutNumbers :: itemsWithoutNumbers docs

/-- The members of an object without the numbers of their values. -/
def membersWithoutNumbers : List (Option String × Document) → List (Option String × Document)
  | [] => []
  | (k, doc) :: ms => (k, doc.withoutNumbers) :: membersWithoutNumbers ms

end

theorem itemsWithoutNumbers_eq_map (docs : List Document) :
    itemsWithoutNumbers docs = docs.map withoutNumbers := by
  induction docs with
  | nil => rw [itemsWithoutNumbers, List.map_nil]
  | cons doc docs ih => rw [itemsWithoutNumbers, List.map_cons, ih]

mutual

/-- It no longer matters what the numbers of a value denoted. -/
theorem Value.withoutNumbers_document (denoted : Number → Option Number) :
    ∀ v : Value, (v.document denoted).withoutNumbers = v.document fun _ => none
  | .null => by rw [Value.document, Value.document, withoutNumbers]
  | .bool _ => by rw [Value.document, Value.document, withoutNumbers]
  | .number _ => by rw [Value.document, Value.document, withoutNumbers]
  | .string _ => by rw [Value.document, Value.document, withoutNumbers]
  | .array items => by
    rw [Value.document, Value.document, withoutNumbers, itemsWithoutNumbers_documents denoted items]
  | .object members => by
    rw [Value.document, Value.document, withoutNumbers,
      membersWithoutNumbers_documents denoted members]

theorem itemsWithoutNumbers_documents (denoted : Number → Option Number) :
    ∀ vs : List Value, itemsWithoutNumbers (itemDocuments denoted vs) =
      itemDocuments (fun _ => none) vs
  | [] => by rw [itemDocuments, itemDocuments, itemsWithoutNumbers]
  | v :: vs => by
    rw [itemDocuments, itemDocuments, itemsWithoutNumbers,
      Value.withoutNumbers_document denoted v, itemsWithoutNumbers_documents denoted vs]

theorem membersWithoutNumbers_documents (denoted : Number → Option Number) :
    ∀ ms : Members, membersWithoutNumbers (memberDocuments denoted ms) =
      memberDocuments (fun _ => none) ms
  | [] => by rw [memberDocuments, memberDocuments, membersWithoutNumbers]
  | (k, v) :: ms => by
    rw [memberDocuments, memberDocuments, membersWithoutNumbers,
      Value.withoutNumbers_document denoted v, membersWithoutNumbers_documents denoted ms]

end

/-! ## Readers that know no numbers -/

/-- A reader that takes documents that differ in numbers alone for the same. -/
def IgnoresNumbers {α : Type} (item? : Document → Option α) : Prop :=
  ∀ doc : Document, item? doc.withoutNumbers = item? doc

/-- Such a reader does not ask what the numbers of a value denote. -/
theorem IgnoresNumbers.document_eq {α : Type} {item? : Document → Option α}
    (h : IgnoresNumbers item?) (denoted : Number → Option Number) (v : Value) :
    item? (v.document denoted) = item? (.ofValue v) :=
  calc item? (v.document denoted)
      = item? (v.document fun _ => none) := by rw [← h, v.withoutNumbers_document]
    _ = item? (v.document some) := by rw [← h (v.document some), v.withoutNumbers_document]
    _ = item? (.ofValue v) := by rw [v.document_some]

theorem ignoresNumbers_text? : IgnoresNumbers text? := by
  intro doc
  cases doc <;> rw [withoutNumbers] <;> rfl

theorem ignoresNumbers_bool? : IgnoresNumbers bool? := by
  intro doc
  cases doc <;> rw [withoutNumbers] <;> rfl

section Readers

variable {α : Type} {item? : Document → Option α}

theorem IgnoresNumbers.listOf? (h : IgnoresNumbers item?) : IgnoresNumbers (listOf? item?) := by
  intro doc
  cases doc with
  | array items =>
    have hitems : (items.map withoutNumbers).mapM item? = items.mapM item? := by
      induction items with
      | nil => rfl
      | cons doc docs ih => rw [List.map_cons, List.mapM_cons, List.mapM_cons, h doc, ih]
    rw [withoutNumbers, itemsWithoutNumbers_eq_map]
    exact hitems
  | _ => simp only [withoutNumbers, Document.listOf?]

theorem IgnoresNumbers.optionOf? (h : IgnoresNumbers item?) :
    IgnoresNumbers (optionOf? item?) := by
  intro doc
  have hdoc := h doc
  cases doc <;> simp only [withoutNumbers, Document.optionOf?] at hdoc ⊢ <;> rw [hdoc]

/-! ## Fields -/

def fieldsWithoutNumbers (fields : List (String × Document)) : List (String × Document) :=
  fields.map fun f => (f.1, f.2.withoutNumbers)

theorem lookup_fieldsWithoutNumbers (fields : List (String × Document)) (name : String) :
    (fieldsWithoutNumbers fields).lookup name = (fields.lookup name).map withoutNumbers := by
  induction fields with
  | nil => rfl
  | cons f fields ih =>
    rw [fieldsWithoutNumbers, List.map_cons, List.lookup_cons, List.lookup_cons]
    cases hname : name == f.1 with
    | true => rfl
    | false => exact ih

/-- Keys are read as they are. -/
theorem mapM_membersWithoutNumbers (ms : List (Option String × Document)) :
    (membersWithoutNumbers ms).mapM (fun m => m.1.map fun k => (k, m.2)) =
      (ms.mapM fun m : Option String × Document => m.1.map fun k => (k, m.2)).map
        fieldsWithoutNumbers := by
  induction ms with
  | nil => rfl
  | cons m ms ih =>
    obtain ⟨k, doc⟩ := m
    rw [membersWithoutNumbers, List.mapM_cons, List.mapM_cons, ih]
    cases k with
    | none => rfl
    | some k =>
      cases ms.mapM fun m : Option String × Document => m.1.map fun k => (k, m.2) with
      | none => rfl
      | some fields => rfl

/-- Known fields are told by their names. -/
theorem filter_fieldsWithoutNumbers (fields : List (String × Document)) (names : List String) :
    (fieldsWithoutNumbers fields).filter (fun f => names.contains f.1) =
      fieldsWithoutNumbers (fields.filter fun f => names.contains f.1) := by
  unfold fieldsWithoutNumbers
  rw [List.filter_map]
  rfl

theorem names_fieldsWithoutNumbers (fields : List (String × Document)) :
    (fieldsWithoutNumbers fields).map (·.1) = fields.map (·.1) := by
  unfold fieldsWithoutNumbers
  rw [List.map_map]
  rfl

/-- **The fields of a record** are found by their names, whatever its numbers are. -/
theorem fields?_withoutNumbers (names : List String) (doc : Document) :
    doc.withoutNumbers.fields? names = (doc.fields? names).map fieldsWithoutNumbers := by
  cases doc with
  | array items =>
    rw [withoutNumbers, itemsWithoutNumbers_eq_map, fields?, fields?, List.length_map]
    split
    · rw [List.zip_map_right]
      rfl
    · rfl
  | object members =>
    rw [withoutNumbers, fields?, fields?, mapM_membersWithoutNumbers]
    cases members.mapM fun m : Option String × Document => m.1.map fun k => (k, m.2) with
    | none => rfl
    | some fields =>
      -- the known fields and their repetitions are told by the names, which stay
      simp only [Option.map_some, Option.bind_eq_bind, Option.bind_some,
        filter_fieldsWithoutNumbers, names_fieldsWithoutNumbers]
      rw [fieldsWithoutNumbers, List.length_map]
      split <;> rfl
  | _ =>
    rw [withoutNumbers]
    rfl

variable {fields : List (String × Document)} {name : String}

theorem IgnoresNumbers.required (h : IgnoresNumbers item?) :
    required (fieldsWithoutNumbers fields) name item? = required fields name item? := by
  unfold Document.required
  rw [lookup_fieldsWithoutNumbers]
  cases fields.lookup name with
  | none => rfl
  | some doc => exact h doc

theorem IgnoresNumbers.orElse (h : IgnoresNumbers item?) (absent : α) :
    orElse (fieldsWithoutNumbers fields) name item? absent =
      orElse fields name item? absent := by
  unfold Document.orElse
  rw [lookup_fieldsWithoutNumbers]
  cases fields.lookup name with
  | none => rfl
  | some doc => exact h doc

theorem IgnoresNumbers.optional (h : IgnoresNumbers item?) :
    optional (fieldsWithoutNumbers fields) name item? = optional fields name item? :=
  h.optionOf?.orElse none

/-- A record whose fields are read whatever its numbers are is read so. -/
theorem ignoresNumbers_record (names : List String) {read : List (String × Document) → Option α}
    (h : ∀ fields, read (fieldsWithoutNumbers fields) = read fields) :
    IgnoresNumbers fun doc => (doc.fields? names).bind read := by
  intro doc
  dsimp only
  rw [fields?_withoutNumbers]
  cases doc.fields? names with
  | none => rfl
  | some fields => exact h fields

end Readers

end Coordination.Json

namespace Coordination

open Json

/-! ## Models

Every field is a text, a truth value, or a list of models that hold no number either. -/

theorem Parameter.ignoresNumbers : IgnoresNumbers Parameter.ofDocument? := by
  apply ignoresNumbers_record
  intro fields
  rw [ignoresNumbers_text?.required, ignoresNumbers_text?.orElse, ignoresNumbers_text?.orElse]

theorem Function.ignoresNumbers : IgnoresNumbers Function.ofDocument? := by
  have hparameters := Parameter.ignoresNumbers.listOf?
  apply ignoresNumbers_record
  intro fields
  simp only [ignoresNumbers_text?.optional, ignoresNumbers_text?.required,
    ignoresNumbers_text?.orElse, hparameters.orElse]

theorem Plugin.ignoresNumbers : IgnoresNumbers Plugin.ofDocument? := by
  have hfunctions := Function.ignoresNumbers.listOf?
  apply ignoresNumbers_record
  intro fields
  simp only [ignoresNumbers_text?.optional, ignoresNumbers_text?.required,
    ignoresNumbers_text?.orElse, hfunctions.orElse]

theorem Plugin.listIgnoresNumbers : IgnoresNumbers Plugin.listOfDocument? :=
  Plugin.ignoresNumbers.listOf?

theorem HostModel.ignoresNumbers : IgnoresNumbers HostModel.ofDocument? := by
  apply ignoresNumbers_record
  intro fields
  simp only [ignoresNumbers_text?.required, ignoresNumbers_text?.orElse,
    Plugin.listIgnoresNumbers.orElse]

theorem AgentModel.ignoresNumbers : IgnoresNumbers AgentModel.ofDocument? := by
  apply ignoresNumbers_record
  intro fields
  simp only [ignoresNumbers_text?.required, ignoresNumbers_text?.orElse,
    ignoresNumbers_text?.optional, ignoresNumbers_bool?.orElse]

theorem AgentModel.listIgnoresNumbers : IgnoresNumbers AgentModel.listOfDocument? :=
  AgentModel.ignoresNumbers.listOf?

theorem Jwk.ignoresNumbers : IgnoresNumbers Jwk.ofDocument? := by
  apply ignoresNumbers_record
  intro fields
  simp only [ignoresNumbers_text?.required, ignoresNumbers_text?.optional]

end Coordination
