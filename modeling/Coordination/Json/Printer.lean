import Coordination.Json.Value
import Coordination.Decimal.Shortest
import Coordination.Text.Hex
/-!
# Writing JSON text

The compact text of a value: no blanks, members in the order of the object, numbers in the shortest
form that reads back.
-/

namespace Coordination.Json

/-! ## Texts -/

/-- A character between the quotes.  Only what the format requires is written as an escape. -/
def escapeChar (c : Char) : List Char :=
  if c = '"' then ['\\', '"']
  else if c = '\\' then ['\\', '\\']
  else if c = '\x08' then ['\\', 'b']
  else if c = '\x0c' then ['\\', 'f']
  else if c = '\n' then ['\\', 'n']
  else if c = '\r' then ['\\', 'r']
  else if c = '\t' then ['\\', 't']
  else if c.toNat < 0x20 then
    ['\\', 'u', '0', '0', Text.Hex.lowerDigit (c.toNat / 16), Text.Hex.lowerDigit (c.toNat % 16)]
  else [c]

/-- A text between quotes. -/
def quoteChars (cs : List Char) : List Char :=
  '"' :: cs.flatMap escapeChar ++ ['"']

/-! ## Numbers -/

def integerChars (n : Int) : List Char :=
  if n < 0 then '-' :: Decimal.digitChars n.natAbs else Decimal.digitChars n.natAbs

/-- How a binary number is written: the exponents of the first digit that are written without an
exponent run from `firstPositional` up to but without `endPositional`. -/
structure BinaryFormat where
  firstPositional : Int
  endPositional : Int

/-- Numbers from `10 ^ -5` up to `10 ^ 16` are written without an exponent. -/
def binaryFormat : BinaryFormat := ⟨-5, 16⟩

/-- A positive decimal: without exponent always with a digit on both sides of the point, otherwise
with one digit before the point and a sign before the exponent. -/
def scientificChars (format : BinaryFormat) (x : Decimal.Scientific) : List Char :=
  let ds := Decimal.digitChars x.digits
  let first := x.exponent + ds.length - 1
  if format.firstPositional ≤ first ∧ first < format.endPositional then
    if 0 ≤ x.exponent then ds ++ List.replicate x.exponent.toNat '0' ++ ['.', '0']
    else if 0 ≤ first then
      ds.take (first.toNat + 1) ++ '.' :: ds.drop (first.toNat + 1)
    else '0' :: '.' :: List.replicate (-first - 1).toNat '0' ++ ds
  else
    let mantissa := match ds with
      | d :: [] => [d]
      | d :: more => d :: '.' :: more
      | [] => []
    mantissa ++ 'e' :: (if first < 0 then '-' else '+') :: Decimal.digitChars first.natAbs

/-- A binary number; one that is not finite is written as `null`. -/
def binaryChars (x : Decimal.Binary64) : List Char :=
  if !x.isFinite then "null".toList
  else
    let sign := if x.isNegative then ['-'] else []
    match x.shortest? with
    | some d => sign ++ scientificChars binaryFormat d
    | none => sign ++ ['0', '.', '0']

def numberChars : Number → List Char
  | .integer n => integerChars n
  | .binary x => binaryChars x

/-! ## Values -/

mutual

def valueChars : Value → List Char
  | .null => "null".toList
  | .bool true => "true".toList
  | .bool false => "false".toList
  | .number n => numberChars n
  | .string s => quoteChars s.toList
  | .array [] => ['[', ']']
  | .array (v :: vs) => '[' :: valueChars v ++ itemChars vs
  | .object [] => ['\x7b', '\x7d']
  | .object ((k, v) :: ms) => '\x7b' :: quoteChars k.toList ++ ':' :: valueChars v ++ memberChars ms

/-- The items after the first one, and the closing bracket. -/
def itemChars : List Value → List Char
  | [] => [']']
  | v :: vs => ',' :: valueChars v ++ itemChars vs

/-- The members after the first one, and the closing brace. -/
def memberChars : List (String × Value) → List Char
  | [] => ['\x7d']
  | (k, v) :: ms => ',' :: quoteChars k.toList ++ ':' :: valueChars v ++ memberChars ms

end

def Value.render (v : Value) : String := String.ofList (valueChars v)

def Members.toBytes (ms : Members) : ByteArray := (Value.object ms).render.toUTF8

end Coordination.Json
