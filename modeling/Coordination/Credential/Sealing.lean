import Coordination.Credential.PublicKey
/-!
# Sealed values

A value sealed to a public key is a block of bytes, and only the holder of the private half opens
it.  How a block is made and opened, and how a key pair comes about, is the business of a cipher,
which is given.  All three may fail.  Sealing and the making of keys draw at random, and the draws
are numbered.
-/

namespace Coordination

/-- The bytes of a block that do not hold the value, in the padding that is used. -/
def PublicKey.overhead : Nat := 66

/-- Someone who can open what is sealed to a key. -/
structure KeyPair where
  publicKey : PublicKey
  /-- What the private half makes of a block. -/
  openBlock : List UInt8 → Except String (List UInt8)

structure Cipher where
  /-- The key pair of a number of bits that a draw gives. -/
  generate : (bits draw : Nat) → Except String KeyPair
  /-- The block that a draw gives for a value. -/
  sealBlock : (draw : Nat) → PublicKey → List UInt8 → Except String (List UInt8)

/-- Seals a value to a key in exchange form, as padded base64.  An empty value is refused. -/
def Jwk.encrypt (k : Jwk) (cipher : Cipher) (draw : Nat) (plain : List UInt8) :
    Except Error String :=
  if plain = [] then .error (.crypto "refusing to encrypt an empty value")
  else do
    let key ← k.toPublicKey
    match cipher.sealBlock draw key plain with
    | .ok block => return Text.Base64.encode block
    | .error reason => .error (.crypto ("encrypt: " ++ reason))

namespace KeyPair

/-- The bits of a key if nothing else is said. -/
def defaultBits : Nat := 2048

def generate (cipher : Cipher) (bits draw : Nat) : Except Error KeyPair :=
  (cipher.generate bits draw).mapError fun reason => .crypto ("keygen: " ++ reason)

/-- The public half in exchange form. -/
def jwk (k : KeyPair) : Jwk := Jwk.ofPublicKey k.publicKey

/-- The bytes of a value that was sealed to the key. -/
def openText (k : KeyPair) (ciphertext : String) : Except Error (List UInt8) :=
  match Text.Base64.decode? ciphertext with
  | none => .error (.crypto "ciphertext: not base64")
  | some block => (k.openBlock block).mapError fun reason => .crypto ("decrypt: " ++ reason)

/-- The text that was sealed to the key. -/
def decrypt (k : KeyPair) (ciphertext : String) : Except Error String := do
  let plain ← k.openText ciphertext
  match String.fromUTF8? ⟨plain.toArray⟩ with
  | some s => return s
  | none => .error (.crypto "credential is not utf-8: malformed bytes")

def describe (k : KeyPair) : String :=
  let quoteOption : Option String → String
    | some s => "Some(" ++ Text.Quoted.quote s ++ ")"
    | none => "None"
  "KeyPair \x7b public: Jwk \x7b kty: " ++ Text.Quoted.quote k.jwk.kty ++ ", n: " ++
    Text.Quoted.quote k.jwk.n ++ ", e: " ++ Text.Quoted.quote k.jwk.e ++ ", kid: " ++
    quoteOption k.jwk.kid ++ ", alg: " ++ quoteOption k.jwk.alg ++ " \x7d, .. \x7d"

end KeyPair

end Coordination
