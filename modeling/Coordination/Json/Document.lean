import Coordination.Json.Value
/-!
# JSON documents

A text of the data format by its form alone: members stand in the order in which they were written,
a key may occur twice, and a literal that denotes nothing (an unpaired surrogate escape, a number
out of range) is kept as such.  A reader of a record skips what it does not know without asking
for its meaning; a value is a document in which everything has one.
-/

namespace Coordination.Json

/-- A text of the data format by its form. -/
inductive Document where
  | null
  | bool (value : Bool)
  /-- A number; `none` when it is out of range. -/
  | number (value : Option Number)
  /-- A text; `none` when an escape in it denotes no character. -/
  | string (value : Option String)
  | array (items : List Document)
  | object (members : List (Option String × Document))
deriving Repr

namespace Document

/-! ## Values -/

/-- The deepest nesting of arrays and objects that a value may have. -/
def depthLimit : Nat := 127

mutual

/-- The value that the document denotes, with at most `depth` levels of nesting. -/
def toValue? (depth : Nat) : Document → Option Value
  | .null => some .null
  | .bool b => some (.bool b)
  | .number n => n.map .number
  | .string s => s.map .string
  | .array items =>
    match depth with
    | 0 => none
    | depth + 1 => (itemValues? depth items).map .array
  | .object members =>
    match depth with
    | 0 => none
    | depth + 1 => (memberValues? depth members).map fun ms => .object (Members.ofList ms)

def itemValues? (depth : Nat) : List Document → Option (List Value)
  | [] => some []
  | item :: items =>
    match toValue? depth item, itemValues? depth items with
    | some v, some vs => some (v :: vs)
    | _, _ => none

/-- The keys and values of the members of an object, as they were written. -/
def memberValues? (depth : Nat) : List (Option String × Document) → Option (List (String × Value))
  | [] => some []
  | (key, item) :: members =>
    match key, toValue? depth item, memberValues? depth members with
    | some k, some v, some ms => some ((k, v) :: ms)
    | _, _, _ => none

end

def value? (doc : Document) : Option Value := doc.toValue? depthLimit

mutual

/-- The document that writes a value. -/
def ofValue : Value → Document
  | .null => .null
  | .bool b => .bool b
  | .number n => .number (some n)
  | .string s => .string (some s)
  | .array items => .array (ofItems items)
  | .object members => .object (ofMembers members)

def ofItems : List Value → List Document
  | [] => []
  | v :: vs => ofValue v :: ofItems vs

def ofMembers : List (String × Value) → List (Option String × Document)
  | [] => []
  | (k, v) :: ms => (some k, ofValue v) :: ofMembers ms

end

/-! ## Records

A record is written as an object, whose unknown members are skipped, or as an array of its fields
in their order, which may end early.
-/

/-- The fields of a record that are present, by name.  Every key must be a text, and no known key
may stand twice; an array must not be longer than the record. -/
def fields? (names : List String) : Document → Option (List (String × Document))
  | .object members => do
    let members ← members.mapM fun (key, item) => key.map fun k => (k, item)
    let known := members.filter fun (k, _) => names.contains k
    if known.length = (known.map (·.1)).eraseDups.length then some known else none
  | .array items => if items.length ≤ names.length then some (names.zip items) else none
  | _ => none

def text? : Document → Option String
  | .string s => s
  | _ => none

def bool? : Document → Option Bool
  | .bool b => some b
  | _ => none

/-- The natural number up to `bound` that the document denotes. -/
def natUpTo? (bound : Nat) : Document → Option Nat
  | .number (some (.integer (.ofNat n))) => if n ≤ bound then some n else none
  | _ => none

/-- The items of an array, each read with `item?`. -/
def listOf? {α : Type} (item? : Document → Option α) : Document → Option (List α)
  | .array items => items.mapM item?
  | _ => none

/-- What `item?` reads, or nothing for `null`. -/
def optionOf? {α : Type} (item? : Document → Option α) : Document → Option (Option α)
  | .null => some none
  | doc => (item? doc).map some

/-- A field that must be present. -/
def required {α : Type} (fields : List (String × Document)) (name : String)
    (item? : Document → Option α) : Option α :=
  (fields.lookup name).bind item?

/-- A field with a value of its own when it is absent. -/
def orElse {α : Type} (fields : List (String × Document)) (name : String)
    (item? : Document → Option α) (absent : α) : Option α :=
  match fields.lookup name with
  | none => some absent
  | some doc => item? doc

/-- A field that may be absent or `null`. -/
def optional {α : Type} (fields : List (String × Document)) (name : String)
    (item? : Document → Option α) : Option (Option α) :=
  orElse fields name (optionOf? item?) none

end Document

end Coordination.Json
