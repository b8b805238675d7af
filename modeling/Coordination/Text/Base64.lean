/-!
# Base64

Bytes as text over sixty-four characters, six bits each.  Reading is strict: bits that no byte
uses must be zero, and nothing but the alphabet (and the padding, where it is required) is allowed.
-/

namespace Coordination.Text.Base64

/-- The two characters in which alphabets differ. -/
structure Alphabet where
  /-- The character of the value 62. -/
  sixtyTwo : Char
  /-- The character of the value 63. -/
  sixtyThree : Char

/-- The alphabet of ordinary texts. -/
def standard : Alphabet := ⟨'+', '/'⟩

/-- The alphabet that needs no escape in a web address. -/
def urlSafe : Alphabet := ⟨'-', '_'⟩

namespace Alphabet

def char (a : Alphabet) (n : Nat) : Char :=
  if n < 26 then Char.ofNat (65 + n)
  else if n < 52 then Char.ofNat (71 + n)
  else if n < 62 then Char.ofNat (n - 4)
  else if n = 62 then a.sixtyTwo
  else a.sixtyThree

def value? (a : Alphabet) (c : Char) : Option Nat :=
  if 'A' ≤ c ∧ c ≤ 'Z' then some (c.toNat - 65)
  else if 'a' ≤ c ∧ c ≤ 'z' then some (c.toNat - 71)
  else if '0' ≤ c ∧ c ≤ '9' then some (c.toNat + 4)
  else if c = a.sixtyTwo then some 62
  else if c = a.sixtyThree then some 63
  else none

/-- Three bytes become four characters; a rest of one or two bytes becomes two or three. -/
def encodeChars (a : Alphabet) : List UInt8 → List Char
  | [] => []
  | [x] => [a.char (x.toNat / 4), a.char (x.toNat % 4 * 16)]
  | [x, y] =>
    [a.char (x.toNat / 4), a.char (x.toNat % 4 * 16 + y.toNat / 16), a.char (y.toNat % 16 * 4)]
  | x :: y :: z :: rest =>
    a.char (x.toNat / 4) :: a.char (x.toNat % 4 * 16 + y.toNat / 16) ::
      a.char (y.toNat % 16 * 4 + z.toNat / 64) :: a.char (z.toNat % 64) :: encodeChars a rest

/-- The bytes of characters without padding; a single left-over character, or left-over bits that
are not zero, are refused. -/
def decodeChars? (a : Alphabet) : List Char → Option (List UInt8)
  | [] => some []
  | [_] => none
  | [p, q] => do
    let p ← a.value? p
    let q ← a.value? q
    if q % 16 = 0 then some [UInt8.ofNat (p * 4 + q / 16)] else none
  | [p, q, r] => do
    let p ← a.value? p
    let q ← a.value? q
    let r ← a.value? r
    if r % 4 = 0 then
      some [UInt8.ofNat (p * 4 + q / 16), UInt8.ofNat (q % 16 * 16 + r / 4)]
    else none
  | p :: q :: r :: s :: rest => do
    let p ← a.value? p
    let q ← a.value? q
    let r ← a.value? r
    let s ← a.value? s
    let bytes ← decodeChars? a rest
    return UInt8.ofNat (p * 4 + q / 16) :: UInt8.ofNat (q % 16 * 16 + r / 4) ::
      UInt8.ofNat (r % 4 * 64 + s) :: bytes

end Alphabet

/-- Bytes in the web alphabet, without padding. -/
def encodeUrl (bytes : List UInt8) : String :=
  String.ofList (urlSafe.encodeChars bytes)

def encode (bytes : List UInt8) : String :=
  let cs := standard.encodeChars bytes
  String.ofList (cs ++ List.replicate ((4 - cs.length % 4) % 4) '=')

def dropPad (cs : List Char) : List Char :=
  if cs.getLast? = some '=' then cs.dropLast else cs

/-- Bytes from the standard alphabet, with exactly the padding that writing gives. -/
def decode? (s : String) : Option (List UInt8) :=
  let cs := s.toList
  if cs.length % 4 = 0 then standard.decodeChars? (dropPad (dropPad cs)) else none

end Coordination.Text.Base64
