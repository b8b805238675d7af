import Coordination.Model.Basic
import Coordination.Error
import Coordination.Crypto.Sha256
import Coordination.Text.Base64
import Coordination.Text.Hex
import Coordination.Text.Quoted
/-!
# Public keys

A public key is a modulus and an exponent.  In exchange form the two numbers are texts in the web
alphabet of base64, and the key is named by a digest of its required members.
-/

namespace Coordination

/-- The numbers of a public key. -/
structure PublicKey where
  modulus : Nat
  exponent : Nat
deriving DecidableEq, Repr

namespace PublicKey

def bitCount (n : Nat) : Nat := if n = 0 then 0 else Nat.log2 n + 1

def maxModulusBits : Nat := 4096

def maxExponent : Nat := Nat.pow 2 33 - 1

/-- Whether the numbers can be used as a key. -/
def isValid (k : PublicKey) : Bool :=
  bitCount k.modulus ≤ maxModulusBits && k.exponent < k.modulus && k.modulus % 2 = 1 &&
    k.exponent % 2 = 1 && 2 ≤ k.exponent && k.exponent ≤ maxExponent

/-- The number of bytes of the modulus, and so of every sealed value. -/
def size (k : PublicKey) : Nat := (bitCount k.modulus + 7) / 8

end PublicKey

namespace Jwk

/-- The family of keys that is understood. -/
def family : String := "RSA"

/-- The scheme in which keys are used. -/
def scheme : String := "RSA-OAEP-256"

/-- A number in exchange form: its bytes without leading zeros. -/
def encodeNumber (n : Nat) : String := Text.Base64.encodeUrl (Text.Hex.bytesOfNat n)

/-- The name of a key: the digest of the object of its required members in the order of their
names. -/
def thumbprint (n e : String) : String :=
  let canonical := "\x7b\"e\":\"" ++ e ++ "\",\"kty\":\"RSA\",\"n\":\"" ++ n ++ "\"\x7d"
  Text.Base64.encodeUrl (Crypto.Sha256.digest canonical.toUTF8.toList)

/-- The exchange form of a key. -/
def ofPublicKey (k : PublicKey) : Jwk :=
  let n := encodeNumber k.modulus
  let e := encodeNumber k.exponent
  { kty := family, n, e, kid := some (thumbprint n e), alg := some scheme }

def dropPadding (cs : List Char) : List Char :=
  (cs.reverse.dropWhile (· = '=')).reverse

/-- The bytes of a number in exchange form; there must be at least one. -/
def decodeNumber (name value : String) : Except Error Nat :=
  match Text.Base64.urlSafe.decodeChars? (dropPadding value.toList) with
  | none => .error (.crypto ("jwk " ++ name ++ ": not in the web alphabet"))
  | some [] => .error (.crypto ("jwk " ++ name ++ " is empty"))
  | some bytes => .ok (Text.Hex.natOfBytes bytes)

/-- The key of an exchange form. -/
def toPublicKey (k : Jwk) : Except Error PublicKey :=
  if k.kty ≠ family then
    .error (.crypto ("unsupported key type " ++ Text.Quoted.quote k.kty))
  else do
    let modulus ← decodeNumber "n" k.n
    let exponent ← decodeNumber "e" k.e
    let key : PublicKey := ⟨modulus, exponent⟩
    if key.isValid then return key else .error (.crypto "invalid RSA key: numbers out of range")

end Jwk

end Coordination
