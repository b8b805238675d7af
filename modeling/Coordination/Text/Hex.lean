/-!
# Hexadecimal digits

Reading and writing single digits, two-digit bytes and byte sequences.
-/

namespace Coordination.Text.Hex

/-- The value of a hexadecimal digit of either case. -/
def digit? (c : Char) : Option Nat :=
  if '0' ≤ c ∧ c ≤ '9' then some (c.toNat - 48)
  else if 'a' ≤ c ∧ c ≤ 'f' then some (c.toNat - 87)
  else if 'A' ≤ c ∧ c ≤ 'F' then some (c.toNat - 55)
  else none

def lowerDigit (n : Nat) : Char :=
  if n < 10 then Char.ofNat (48 + n) else Char.ofNat (87 + n)

def upperDigit (n : Nat) : Char :=
  if n < 10 then Char.ofNat (48 + n) else Char.ofNat (55 + n)

/-- The lower-case digits of `n`, without leading zeros. -/
def lowerDigits (n : Nat) : List Char :=
  if _h : n < 16 then [lowerDigit n] else lowerDigits (n / 16) ++ [lowerDigit (n % 16)]
  termination_by n

/-- The lower-case digits of a byte. -/
def lowerByte (b : UInt8) : List Char :=
  [lowerDigit (b.toNat / 16), lowerDigit (b.toNat % 16)]

def encode (bytes : List UInt8) : String :=
  String.ofList (bytes.flatMap lowerByte)

/-- Bytes from pairs of digits; an odd count or another character is refused. -/
def decodeChars? : List Char → Option (List UInt8)
  | [] => some []
  | high :: low :: rest => do
    let high ← digit? high
    let low ← digit? low
    let bytes ← decodeChars? rest
    return UInt8.ofNat (16 * high + low) :: bytes
  | [_] => none

def decode? (s : String) : Option (List UInt8) :=
  decodeChars? s.toList

/-- The number that the bytes write with the highest first. -/
def natOfBytes (bytes : List UInt8) : Nat :=
  bytes.foldl (fun n b => 256 * n + b.toNat) 0

/-- The bytes of a number with the highest first; zero is one zero byte. -/
def bytesOfNat (n : Nat) : List UInt8 :=
  go n []
where
  /-- Puts the bytes of `n` in front of `tail`. -/
  go (n : Nat) (tail : List UInt8) : List UInt8 :=
    if _h : n < 256 then UInt8.ofNat n :: tail
    else go (n / 256) (UInt8.ofNat (n % 256) :: tail)
  termination_by n

end Coordination.Text.Hex
