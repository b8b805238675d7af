import Coordination.Credential.Sealing
import Coordination.Text.Hex
/-!
# Reproducible draws

What a run draws where every run is to draw the same: ids by serial number, and a cipher that hides
nothing.  A block of the cipher is as long as the modulus.  In front of the value it names the key
and the length of the value, so that opening under the same key gives the value back and opening
under any other key fails.
-/

namespace Coordination

/-! ## Ids -/

def hexDigits : Nat → Nat → List Char
  | 0, _ => []
  | width + 1, n => hexDigits width (n / 16) ++ [Text.Hex.lowerDigit (n % 16)]

/-- The id with a serial number, in the form of a random universally unique id. -/
def serialId (serial : Nat) : String :=
  String.ofList ("00000000-0000-4000-8000-".toList ++ hexDigits 12 serial)

/-! ## Keys and blocks -/

namespace PublicKey

/-- The digest that names a key in front of a sealed value. -/
def mark (k : PublicKey) : List UInt8 :=
  Crypto.Sha256.digest (Text.Hex.bytesOfNat k.modulus ++ Text.Hex.bytesOfNat k.exponent)

/-- The block of a value that fits. -/
def sealBytes (k : PublicKey) (value : List UInt8) : List UInt8 :=
  let front :=
    k.mark ++ UInt8.ofNat (value.length / 256) :: UInt8.ofNat (value.length % 256) :: value
  front ++ List.replicate (k.size - front.length) 0

/-- The value in a block that was sealed to the key. -/
def openBytes? (k : PublicKey) (block : List UInt8) : Option (List UInt8) :=
  if block.length ≠ k.size then none
  else match List.isPrefixOf? k.mark block with
    | some (high :: low :: rest) => some (rest.take (256 * high.toNat + low.toNat))
    | _ => none

/-- The key pair of a public half, which is all that it takes. -/
def keyPair (k : PublicKey) : KeyPair where
  publicKey := k
  openBlock block := match k.openBytes? block with
    | some value => .ok value
    | none => .error "not sealed to this key"

end PublicKey

namespace Cipher

/-- The exponent of every generated key. -/
def usualExponent : Nat := 65537

/-- The fewest bits for which two primes can be found. -/
def fewestBits : Nat := 12

/-- The cipher whose blocks show the value.  Different draws give different keys. -/
def plain : Cipher where
  generate bits draw :=
    if bits < fewestBits then .error "too few bits"
    else .ok (PublicKey.keyPair ⟨Nat.pow 2 (bits - 1) + 2 * draw + 1, usualExponent⟩)
  sealBlock _ key value :=
    if value.length + PublicKey.overhead ≤ key.size then .ok (key.sealBytes value)
    else .error "value too long"

end Cipher

end Coordination
