import Coordination.Proofs.Json.Quoted
import Coordination.Proofs.Text.Base64
import Coordination.Reproducible
/-!
# What is sealed to a key

A public key is read back from its exchange form.  Of a cipher it is relied on that a value fits into
a block if it leaves room for the padding, and that the holder of the key opens what was sealed to
it; with such a cipher a value that is not empty can be sealed exactly if it fits.
-/

namespace Coordination

open Text

/-! ## Bytes of a text -/

namespace Text

theorem toList_loop (b : ByteArray) (i : Nat) (done : List UInt8) :
    ByteArray.toList.loop b i done = done.reverse ++ b.data.toList.drop i := by
  -- by induction on the number of bytes that are left
  induction hleft : b.size - i using Nat.strongRecOn generalizing i done with
  | ind left ih =>
    rw [ByteArray.toList.loop]
    by_cases hi : i < b.size
    · have hlength : i < b.data.toList.length := hi
      have hget : b.get! i = b.data.toList.get ⟨i, hlength⟩ := getElem!_pos b.data i hi
      have hdrop : b.data.toList.drop i =
          b.data.toList.get ⟨i, hlength⟩ :: b.data.toList.drop (i + 1) :=
        List.drop_eq_getElem_cons hlength
      rw [if_pos hi, ih (b.size - (i + 1)) (by omega) (i + 1) _ rfl, hget, hdrop,
        List.reverse_cons, List.append_assoc]
      rfl
    · have hlength : b.data.toList.length ≤ i := Nat.le_of_not_lt hi
      rw [if_neg hi, List.drop_eq_nil_of_le hlength, List.append_nil]

theorem toList_eq_data (b : ByteArray) : b.toList = b.data.toList := toList_loop b 0 []

theorem length_toList_toUTF8 (s : String) : s.toUTF8.toList.length = s.utf8ByteSize := by
  rw [toList_eq_data]
  rfl

theorem toList_toUTF8_eq_nil_iff {s : String} : s.toUTF8.toList = [] ↔ s = "" := by
  rw [← List.length_eq_zero_iff, length_toList_toUTF8, String.utf8ByteSize_eq_zero_iff]

theorem fromUTF8?_toList_toUTF8 (s : String) :
    String.fromUTF8? ⟨s.toUTF8.toList.toArray⟩ = some s := by
  have hbytes : (⟨s.toUTF8.toList.toArray⟩ : ByteArray) = s.toUTF8 := by
    rw [toList_eq_data, Array.toArray_toList]
  unfold String.fromUTF8?
  rw [hbytes, String.toUTF8_eq_toByteArray, dif_pos (String.isValidUTF8 s)]
  rfl

end Text

/-! ## Exchange form -/

namespace Jwk

theorem dropPadding_of_not_mem {cs : List Char} (h : '=' ∉ cs) : dropPadding cs = cs := by
  have hhead : cs.reverse.dropWhile (fun c => decide (c = '=')) = cs.reverse := by
    rw [List.dropWhile_eq_self_iff]
    intro hlength heq
    rw [decide_eq_true_iff] at heq
    exact h (List.mem_reverse.mp (heq ▸ List.getElem_mem hlength))
  unfold dropPadding
  rw [hhead, List.reverse_reverse]

theorem decodeNumber_encodeNumber (name : String) (n : Nat) :
    decodeNumber name (encodeNumber n) = .ok n := by
  have hpad : '=' ∉ Base64.urlSafe.encodeChars (Hex.bytesOfNat n) :=
    Base64.not_mem_encodeChars (by decide) _
  unfold decodeNumber encodeNumber Base64.encodeUrl
  rw [String.toList_ofList, dropPadding_of_not_mem hpad,
    Base64.decodeChars?_encodeChars Base64.faithful_urlSafe]
  cases hbytes : Hex.bytesOfNat n with
  | nil => exact absurd hbytes (Hex.bytesOfNat_ne_nil n)
  | cons b bs =>
    dsimp only
    rw [← hbytes, Hex.natOfBytes_bytesOfNat]

/-- **A public key is read back from its exchange form**, if its numbers can be used. -/
theorem toPublicKey_ofPublicKey (k : PublicKey) :
    (ofPublicKey k).toPublicKey =
      if k.isValid then .ok k else .error (.crypto "invalid RSA key: numbers out of range") := by
  have hmodulus : decodeNumber "n" (ofPublicKey k).n = .ok k.modulus :=
    decodeNumber_encodeNumber "n" k.modulus
  have hexponent : decodeNumber "e" (ofPublicKey k).e = .ok k.exponent :=
    decodeNumber_encodeNumber "e" k.exponent
  have hfamily : ¬ (ofPublicKey k).kty ≠ family := fun hne => hne rfl
  unfold toPublicKey
  rw [if_neg hfamily, hmodulus, hexponent]
  rfl

end Jwk

/-! ## Values -/

/-- A value is sealed exactly if it is not empty, the key can be used and the cipher makes a
block. -/
theorem Jwk.encrypt_ofPublicKey_eq_ok_iff {k : PublicKey} {cipher : Cipher} {draw : Nat}
    {plain : List UInt8} {ciphertext : String} :
    (ofPublicKey k).encrypt cipher draw plain = .ok ciphertext ↔
      plain ≠ [] ∧ k.isValid = true ∧
        ∃ block, cipher.sealBlock draw k plain = .ok block ∧ Base64.encode block = ciphertext := by
  unfold encrypt
  rw [toPublicKey_ofPublicKey]
  by_cases hempty : plain = []
  · simp [hempty]
  · by_cases hvalid : k.isValid = true
    · cases hblock : cipher.sealBlock draw k plain with
      | ok block => simp [hempty, hvalid, hblock, bind, Except.bind, pure, Except.pure]
      | error reason => simp [hempty, hvalid, hblock, bind, Except.bind]
    · simp [hempty, hvalid, bind, Except.bind]

namespace KeyPair

variable {k : KeyPair} {cipher : Cipher} {value ciphertext : String}

/-- A value that is not empty and leaves room for what sealing costs. -/
def Fits (k : KeyPair) (value : String) : Prop :=
  value ≠ "" ∧ value.utf8ByteSize + PublicKey.overhead ≤ k.publicKey.size

instance (k : KeyPair) (value : String) : Decidable (k.Fits value) := by
  unfold Fits
  infer_instance

/-- What is relied on of a cipher and a key pair. -/
structure SuitedBy (k : KeyPair) (cipher : Cipher) : Prop where
  /-- The numbers of the public half can be used. -/
  valid : k.publicKey.isValid = true
  /-- What leaves room for the padding is sealed, whatever is drawn, and opened. -/
  opens : ∀ draw plain, plain.length + PublicKey.overhead ≤ k.publicKey.size →
    ∃ block, cipher.sealBlock draw k.publicKey plain = .ok block ∧ k.openBlock block = .ok plain
  /-- What leaves less room is not sealed. -/
  bounded : ∀ draw plain block, cipher.sealBlock draw k.publicKey plain = .ok block →
    plain.length + PublicKey.overhead ≤ k.publicKey.size

/-- What fits is sealed as something that opens as the same value, and is the text of no text. -/
theorem encrypt_of_fits (hsuited : k.SuitedBy cipher) (h : k.Fits value) (draw : Nat) :
    ∃ ciphertext, k.jwk.encrypt cipher draw value.toUTF8.toList = .ok ciphertext ∧
      k.decrypt ciphertext = .ok value ∧ ¬ Json.IsQuoted ciphertext := by
  obtain ⟨hempty, hfits⟩ := h
  rw [← length_toList_toUTF8] at hfits
  have hplain : value.toUTF8.toList ≠ [] := by
    intro hnil
    exact hempty (toList_toUTF8_eq_nil_iff.mp hnil)
  obtain ⟨block, hblock, hopen⟩ := hsuited.opens draw value.toUTF8.toList hfits
  refine ⟨Base64.encode block, Jwk.encrypt_ofPublicKey_eq_ok_iff.mpr
    ⟨hplain, hsuited.valid, block, hblock, rfl⟩, ?_, ?_⟩
  · unfold decrypt openText
    rw [Base64.decode?_encode]
    simp only [hopen, Except.mapError, bind, Except.bind, fromUTF8?_toList_toUTF8]
    rfl
  · exact Json.not_isQuoted (Base64.quote_not_mem_encode _)

theorem encrypt_of_not_fits (hsuited : k.SuitedBy cipher) (h : ¬ k.Fits value) (draw : Nat) :
    k.jwk.encrypt cipher draw value.toUTF8.toList ≠ .ok ciphertext := by
  intro hseal
  obtain ⟨hplain, -, block, hblock, -⟩ := Jwk.encrypt_ofPublicKey_eq_ok_iff.mp hseal
  have hfits := hsuited.bounded draw _ block hblock
  rw [length_toList_toUTF8] at hfits
  exact h ⟨fun hempty => hplain (toList_toUTF8_eq_nil_iff.mpr hempty), hfits⟩

end KeyPair

/-! ## The cipher whose blocks show the value -/

namespace PublicKey

variable {k : PublicKey} {plain : List UInt8}

theorem length_mark (k : PublicKey) : k.mark.length = 32 := rfl

/-- A usable key has a modulus of five hundred and twelve bytes at most. -/
theorem size_le_of_isValid (h : k.isValid = true) : k.size ≤ 512 := by
  unfold isValid maxModulusBits at h
  simp only [Bool.and_eq_true, decide_eq_true_eq] at h
  unfold size
  omega

theorem openBytes?_sealBytes (hfits : plain.length + overhead ≤ k.size)
    (hlength : plain.length < 65536) : k.openBytes? (k.sealBytes plain) = some plain := by
  unfold overhead at hfits
  let zeros : List UInt8 := List.replicate (k.size - (34 + plain.length)) 0
  let body : List UInt8 :=
    UInt8.ofNat (plain.length / 256) :: UInt8.ofNat (plain.length % 256) :: (plain ++ zeros)
  have hblock : k.sealBytes plain = k.mark ++ body := by
    have hfront : (k.mark ++ UInt8.ofNat (plain.length / 256) ::
        UInt8.ofNat (plain.length % 256) :: plain).length = 34 + plain.length := by
      simp only [List.length_append, List.length_cons, length_mark]
      omega
    unfold sealBytes
    dsimp only
    rw [hfront, List.append_assoc]
    rfl
  have hsize : (k.mark ++ body).length = k.size := by
    simp only [List.length_append, List.length_cons, List.length_replicate, length_mark, body,
      zeros]
    omega
  have hprefix : List.isPrefixOf? k.mark (k.mark ++ body) = some body :=
    List.isPrefixOf?_eq_some_iff_append_eq.mpr rfl
  -- the two bytes in front of the value give its length
  have hvalue : 256 * (UInt8.ofNat (plain.length / 256)).toNat +
      (UInt8.ofNat (plain.length % 256)).toNat = plain.length := by
    rw [UInt8.toNat_ofNat', UInt8.toNat_ofNat']
    omega
  unfold openBytes?
  rw [hblock, if_neg (fun hne => hne hsize), hprefix]
  dsimp only [body]
  rw [hvalue, List.take_left]

/-- It suits every usable key. -/
theorem suitedBy_plain (h : k.isValid = true) : k.keyPair.SuitedBy .plain where
  valid := h
  opens draw plain hfits := by
    have hsize := size_le_of_isValid h
    have hfits : plain.length + overhead ≤ k.size := hfits
    have hopen : k.keyPair.openBlock (k.sealBytes plain) = .ok plain := by
      unfold keyPair
      dsimp only
      rw [openBytes?_sealBytes hfits (by omega)]
    exact ⟨k.sealBytes plain, if_pos hfits, hopen⟩
  bounded draw plain block hblock := by
    by_contra hnot
    cases (if_neg hnot).symm.trans hblock

end PublicKey

end Coordination
