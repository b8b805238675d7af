import Coordination.Decimal.Binary64
/-!
# JSON values

A value of the data format as programs hold it: texts are decoded, an integer that fits
sixty-four bits stays an integer, and the members of an object are kept in the order of their keys
with no key twice.
-/

namespace Coordination.Json

/-- A number: an integer where it fits sixty-four bits, otherwise a binary fraction. -/
inductive Number where
  /-- An integer from `-2 ^ 63` to `2 ^ 64 - 1`. -/
  | integer (value : Int)
  /-- Any other number. -/
  | binary (value : Decimal.Binary64)
deriving DecidableEq, Repr

inductive Value where
  | null
  | bool (value : Bool)
  | number (value : Number)
  | string (value : String)
  | array (items : List Value)
  | object (members : List (String × Value))
deriving Repr

/-- The members of an object, in the order of their keys. -/
abbrev Members := List (String × Value)

namespace Members

/-- Puts a member at the place of its key; an earlier member of the same key gives way. -/
def insert (key : String) (value : Value) : Members → Members
  | [] => [(key, value)]
  | (k, v) :: rest =>
    if key < k then (key, value) :: (k, v) :: rest
    else if key = k then (key, value) :: rest
    else (k, v) :: insert key value rest

def get? (key : String) : Members → Option Value
  | [] => none
  | (k, v) :: rest => if k = key then some v else get? key rest

/-- The members given in any order; of two with one key the later stays. -/
def ofList (members : List (String × Value)) : Members :=
  members.foldl (fun ms (k, v) => insert k v ms) []

@[simp] theorem get?_nil (key : String) : get? key [] = none := rfl

theorem get?_insert_self (key : String) (value : Value) (ms : Members) :
    get? key (insert key value ms) = some value := by
  induction ms with
  | nil => simp [insert, get?]
  | cons m ms ih =>
    obtain ⟨k, v⟩ := m
    simp only [insert]
    split
    · simp [get?]
    · split
      · simp [get?]
      · next h => simp [get?, Ne.symm h, ih]

theorem get?_insert_ne {key other : String} (h : other ≠ key) (value : Value) (ms : Members) :
    get? other (insert key value ms) = get? other ms := by
  induction ms with
  | nil => simp [insert, get?, Ne.symm h]
  | cons m ms ih =>
    obtain ⟨k, v⟩ := m
    simp only [insert]
    split
    · simp [get?, Ne.symm h]
    · split
      · next hk => subst hk; simp [get?, Ne.symm h]
      · simp [get?, ih]

end Members

namespace Value

/-- An object from members in any order. -/
def ofMembers (members : List (String × Value)) : Value :=
  .object (Members.ofList members)

def ofNat (n : Nat) : Value := .number (.integer n)

/-- A text, or `null` when there is none. -/
def ofText? (s : Option String) : Value :=
  match s with
  | some s => .string s
  | none => .null

def ofTexts (ss : List String) : Value := .array (ss.map .string)

/-- One optional member, left out when it has no value. -/
def member? (key : String) (s : Option String) : List (String × Value) :=
  match s with
  | some s => [(key, .string s)]
  | none => []

def members? : Value → Option Members
  | .object ms => some ms
  | _ => none

end Value

end Coordination.Json
