import Coordination.Json.Document
import Coordination.Text.Hex
/-!
# Reading JSON text

A descent over the characters of a text.  Every reader takes what it recognises from the front and
returns the rest.  The number of calls below each other is bounded by a budget, which the length of
the text always covers.
-/

namespace Coordination.Json.Reader

/-! ## Blanks and literals -/

/-- The characters that may stand between tokens. -/
def isSpace (c : Char) : Bool := c = ' ' || c = '\n' || c = '\r' || c = '\t'

/-- Drops the blanks at the front. -/
def skipSpace (cs : List Char) : List Char := cs.dropWhile isSpace

/-- One element of a quoted text: a character, or a sixteen-bit unit written as an escape. -/
inductive Piece where
  | char (c : Char)
  | unit (n : Nat)
deriving DecidableEq, Repr

/-- The character of a one-letter escape. -/
def shortEscape? (c : Char) : Option Char :=
  if c = '"' then some '"'
  else if c = '\\' then some '\\'
  else if c = '/' then some '/'
  else if c = 'b' then some '\x08'
  else if c = 'f' then some '\x0c'
  else if c = 'n' then some '\n'
  else if c = 'r' then some '\r'
  else if c = 't' then some '\t'
  else none

/-- The pieces up to the closing quote, and what follows it.  A control character must be written
as an escape. -/
def pieces? : List Char → Option (List Piece × List Char)
  | '"' :: rest => some ([], rest)
  | '\\' :: 'u' :: a :: b :: c :: d :: rest => do
    let a ← Text.Hex.digit? a
    let b ← Text.Hex.digit? b
    let c ← Text.Hex.digit? c
    let d ← Text.Hex.digit? d
    let (ps, rest) ← pieces? rest
    return (.unit (((a * 16 + b) * 16 + c) * 16 + d) :: ps, rest)
  | '\\' :: c :: rest => do
    let c ← shortEscape? c
    let (ps, rest) ← pieces? rest
    return (.char c :: ps, rest)
  | c :: rest =>
    if c.toNat < 0x20 ∨ c = '\\' then none
    else (pieces? rest).map fun (ps, rest) => (.char c :: ps, rest)
  | [] => none

/-- The text that pieces denote.  Two units that form a surrogate pair are one character; any other
surrogate denotes nothing. -/
def denote? : List Piece → Option (List Char)
  | [] => some []
  | .char c :: ps => (denote? ps).map (c :: ·)
  | .unit n :: .unit m :: ps =>
    if 0xd800 ≤ n ∧ n < 0xdc00 then
      if 0xdc00 ≤ m ∧ m < 0xe000 then
        (denote? ps).map (Char.ofNat (0x10000 + (n - 0xd800) * 0x400 + (m - 0xdc00)) :: ·)
      else none
    else if 0xdc00 ≤ n ∧ n < 0xe000 then none
    else (denote? (.unit m :: ps)).map (Char.ofNat n :: ·)
  | .unit n :: ps =>
    if 0xd800 ≤ n ∧ n < 0xe000 then none else (denote? ps).map (Char.ofNat n :: ·)

/-- A quoted text after its opening quote: what it denotes, and the rest. -/
def quoted? (cs : List Char) : Option (Option String × List Char) :=
  (pieces? cs).map fun (ps, rest) => ((denote? ps).map String.ofList, rest)

/-! ## Numbers -/

/-- A number as it was written. -/
structure Numeral where
  /-- Whether a minus sign stands in front. -/
  negative : Bool
  /-- The digits before the point. -/
  whole : List Nat
  /-- The digits after the point, if there is one. -/
  fraction : Option (List Nat)
  /-- The exponent, if there is one: whether it is negative, and its digits. -/
  exponent : Option (Bool × List Nat)
deriving Repr

def digit? (c : Char) : Option Nat :=
  if '0' ≤ c ∧ c ≤ '9' then some (c.toNat - 48) else none

/-- The digits at the front, and the rest. -/
def digits : List Char → List Nat × List Char
  | [] => ([], [])
  | c :: cs =>
    match digit? c with
    | some d => (d :: (digits cs).1, (digits cs).2)
    | none => ([], c :: cs)

/-- At least one digit at the front, and the rest. -/
def someDigits? (cs : List Char) : Option (List Nat × List Char) :=
  match digits cs with
  | ([], _) => none
  | found => some found

/-- The part of a number after its whole digits. -/
def fraction? : List Char → Option (Option (List Nat) × List Char)
  | '.' :: cs => (someDigits? cs).map fun (ds, rest) => (some ds, rest)
  | cs => some (none, cs)

def exponent? : List Char → Option (Option (Bool × List Nat) × List Char)
  | c :: cs =>
    if c = 'e' ∨ c = 'E' then
      let (negative, cs) := match cs with
        | '-' :: cs => (true, cs)
        | '+' :: cs => (false, cs)
        | cs => (false, cs)
      (someDigits? cs).map fun (ds, rest) => (some (negative, ds), rest)
    else some (none, c :: cs)
  | [] => some (none, [])

/-- A number at the front.  A zero is not followed by further digits. -/
def numeral? (cs : List Char) : Option (Numeral × List Char) := do
  let (negative, cs) := match cs with
    | '-' :: cs => (true, cs)
    | cs => (false, cs)
  let (whole, rest) ← someDigits? cs
  if whole.head? = some 0 ∧ whole.length ≠ 1 then none
  let (fraction, rest) ← fraction? rest
  let (exponent, rest) ← exponent? rest
  return (⟨negative, whole, fraction, exponent⟩, rest)

namespace Numeral

/-- The largest natural number of sixty-four bits. -/
def maxNat : Nat := UInt64.size - 1

/-- The largest exponent that is counted; a longer one is beyond every range. -/
def maxExponent : Nat := Nat.pow 2 31 - 1

/-- Appends digits to a number for as long as it fits sixty-four bits; the count of those used and
the rest. -/
def gather (n : Nat) : List Nat → Nat × Nat × List Nat
  | [] => (n, 0, [])
  | d :: ds =>
    if n * 10 + d ≤ maxNat then
      let (m, used, rest) := gather (n * 10 + d) ds
      (m, used + 1, rest)
    else (n, 0, d :: ds)

/-- The exponent as an integer; `none` when it has too many digits. -/
def exponentValue? (x : Numeral) : Option Int :=
  match x.exponent with
  | none => some 0
  | some (negative, ds) =>
    let n := ds.foldl (fun n d => if n ≤ maxExponent then n * 10 + d else n) 0
    if n ≤ maxExponent then some (if negative then -n else n) else none

/-- The significand and the power of ten.  Digits are appended for as long as the significand fits
sixty-four bits; whole digits left over count in the power, fraction digits left over do not. -/
def scaled (x : Numeral) : Nat × Int :=
  let (whole, _, dropped) := gather 0 x.whole
  let (significand, used, _) := gather whole (x.fraction.getD [])
  (significand, dropped.length - used)

/-- The binary number of given magnitude under the sign of the numeral. -/
def signed (x : Numeral) (magnitude : Decimal.Binary64) : Number :=
  .binary (if x.negative then magnitude.negate else magnitude)

/-- The number that the numeral denotes; `none` when it is out of range.  Without point and
exponent it is an integer if it fits sixty-four bits; a negative zero is a binary number. -/
def value? (x : Numeral) : Option Number :=
  let (significand, power) := x.scaled
  let isWhole := x.fraction.isNone && x.exponent.isNone && power = 0
  if isWhole && !x.negative then some (.integer significand)
  else if isWhole && significand ≠ 0 && significand ≤ Nat.pow 2 63 then some (.integer (-significand))
  else
    match x.exponentValue? with
    | some exponent => (Decimal.Binary64.ofDecimal? significand (power + exponent)).map x.signed
    | none =>
      match x.exponent with
      | some (false, _) => if significand = 0 then some (x.signed ⟨0⟩) else none
      | _ => some (x.signed ⟨0⟩)

end Numeral

/-! ## Documents -/

mutual

/-- A value at the front, and the rest. -/
def value? : Nat → List Char → Option (Document × List Char)
  | 0, _ => none
  | fuel + 1, cs =>
    match cs with
    | '"' :: rest => (quoted? rest).map fun (s, rest) => (.string s, rest)
    | '[' :: rest =>
      match skipSpace rest with
      | ']' :: rest => some (.array [], rest)
      | rest => (items? fuel rest).map fun (items, rest) => (.array items, rest)
    | '\x7b' :: rest =>
      match skipSpace rest with
      | '\x7d' :: rest => some (.object [], rest)
      | rest => (members? fuel rest).map fun (members, rest) => (.object members, rest)
    | 'n' :: 'u' :: 'l' :: 'l' :: rest => some (.null, rest)
    | 't' :: 'r' :: 'u' :: 'e' :: rest => some (.bool true, rest)
    | 'f' :: 'a' :: 'l' :: 's' :: 'e' :: rest => some (.bool false, rest)
    | cs => (numeral? cs).map fun (x, rest) => (.number x.value?, rest)

/-- The items of an array from the first one to the closing bracket, and the rest. -/
def items? : Nat → List Char → Option (List Document × List Char)
  | 0, _ => none
  | fuel + 1, cs =>
    match value? fuel cs with
    | none => none
    | some (item, rest) =>
      match skipSpace rest with
      | ']' :: rest => some ([item], rest)
      | ',' :: rest =>
        (items? fuel (skipSpace rest)).map fun (items, rest) => (item :: items, rest)
      | _ => none

/-- The members of an object from the first one to the closing brace, and the rest. -/
def members? : Nat → List Char → Option (List (Option String × Document) × List Char)
  | 0, _ => none
  | fuel + 1, cs =>
    match cs with
    | '"' :: rest =>
      match quoted? rest with
      | none => none
      | some (key, rest) =>
        match skipSpace rest with
        | ':' :: rest =>
          match value? fuel (skipSpace rest) with
          | none => none
          | some (item, rest) =>
            match skipSpace rest with
            | '\x7d' :: rest => some ([(key, item)], rest)
            | ',' :: rest =>
              (members? fuel (skipSpace rest)).map fun (members, rest) =>
                ((key, item) :: members, rest)
            | _ => none
        | _ => none
    | _ => none

end

end Reader

/-- The document that a whole text writes. -/
def Document.read? (s : String) : Option Document :=
  let cs := s.toList
  match Reader.value? (cs.length + 1) (Reader.skipSpace cs) with
  | some (doc, rest) => if Reader.skipSpace rest = [] then some doc else none
  | none => none

/-- The value that a whole text writes. -/
def Value.read? (s : String) : Option Value :=
  (Document.read? s).bind Document.value?

/-- The members of the object that a byte sequence writes. -/
def Members.ofBytes? (bytes : ByteArray) : Option Members :=
  (String.fromUTF8? bytes).bind fun s => (Value.read? s).bind Value.members?

end Coordination.Json
