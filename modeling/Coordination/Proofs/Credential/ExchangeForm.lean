import Coordination.Proofs.Credential.Sealing
import Mathlib.Data.List.DropRight
/-!
# The canonical exchange form of a key

Many exchange forms denote one key: they differ in their names and schemes, in the padding of their
numbers and in zeros in front of them, and in nothing else.  The one that is made from the key is the
canonical form.  It denotes the key again, and so it tells the key and nothing about the form from
which the key was read.
-/

namespace Coordination

open Text

namespace Jwk

/-! ## Numbers in exchange form -/

/-- A text that denotes a number: the web alphabet of its bytes, with any zero bytes in front and any
padding behind. -/
def Denotes (text : String) (n : Nat) : Prop :=
  ∃ zeros pads, text.toList =
    Base64.urlSafe.encodeChars (List.replicate zeros 0 ++ Hex.bytesOfNat n) ++
      List.replicate pads '='

theorem dropPadding_eq_rdropWhile (cs : List Char) :
    dropPadding cs = cs.rdropWhile (fun c => decide (c = '=')) := rfl

/-- Behind what is kept there is nothing but padding. -/
theorem exists_eq_dropPadding_append (cs : List Char) :
    ∃ pads, cs = dropPadding cs ++ List.replicate pads '=' := by
  refine ⟨(cs.rtakeWhile fun c => decide (c = '=')).length, ?_⟩
  have hpads : cs.rtakeWhile (fun c => decide (c = '=')) =
      List.replicate (cs.rtakeWhile fun c => decide (c = '=')).length '=' := by
    rw [List.eq_replicate_length]
    intro c hc
    have hpad := List.mem_rtakeWhile_imp hc
    exact of_decide_eq_true hpad
  rw [← hpads, dropPadding_eq_rdropWhile, List.rdropWhile_append_rtakeWhile]

/-- Padding is dropped, however much there is. -/
theorem dropPadding_append {cs : List Char} (h : '=' ∉ cs) (pads : Nat) :
    dropPadding (cs ++ List.replicate pads '=') = cs := by
  induction pads with
  | zero => rw [List.replicate_zero, List.append_nil, dropPadding_of_not_mem h]
  | succ pads ih =>
    rw [List.replicate_succ', ← List.append_assoc, dropPadding_eq_rdropWhile,
      List.rdropWhile_concat_pos _ _ _ (by decide), ← dropPadding_eq_rdropWhile, ih]

/-- Only bytes are read as a number, and at least one. -/
theorem decodeNumber_eq_ok_iff_bytes {name text : String} {n : Nat} :
    decodeNumber name text = .ok n ↔ ∃ bytes, bytes ≠ [] ∧ Hex.natOfBytes bytes = n ∧
      Base64.urlSafe.decodeChars? (dropPadding text.toList) = some bytes := by
  unfold decodeNumber
  constructor
  · intro h
    split at h
    · cases h
    · cases h
    -- of the three outcomes of the reader only this one is no error
    · next bytes hne hread =>
      cases h
      exact ⟨bytes, hne, rfl, hread⟩
  · intro h
    obtain ⟨bytes, hne, rfl, hread⟩ := h
    rw [hread]
    cases bytes with
    | nil => exact absurd rfl hne
    | cons b bytes => rfl

/-- **A number is read from exactly the texts that denote it.** -/
theorem decodeNumber_eq_ok_iff {name text : String} {n : Nat} :
    decodeNumber name text = .ok n ↔ Denotes text n := by
  rw [decodeNumber_eq_ok_iff_bytes]
  constructor
  · intro h
    obtain ⟨bytes, hne, hn, hread⟩ := h
    obtain ⟨zeros, rfl⟩ := (Hex.natOfBytes_eq_iff hne).mp hn
    obtain ⟨pads, hpads⟩ := exists_eq_dropPadding_append text.toList
    refine ⟨zeros, pads, ?_⟩
    rw [Base64.encodeChars_of_decodeChars? hread]
    exact hpads
  · intro h
    obtain ⟨zeros, pads, htext⟩ := h
    have hne : List.replicate zeros 0 ++ Hex.bytesOfNat n ≠ [] :=
      List.append_ne_nil_of_right_ne_nil _ (Hex.bytesOfNat_ne_nil n)
    refine ⟨_, hne, (Hex.natOfBytes_eq_iff hne).mpr ⟨zeros, rfl⟩, ?_⟩
    -- no character of the alphabet is taken for padding
    rw [htext, dropPadding_append (Base64.not_mem_encodeChars (by decide) _),
      Base64.decodeChars?_encodeChars Base64.faithful_urlSafe]

/-! ## Keys in exchange form -/

/-- **A key is read from exactly the forms of its family whose numbers denote its own**, if it can be
used at all; name and scheme do not matter. -/
theorem toPublicKey_eq_ok_iff {k : Jwk} {key : PublicKey} :
    k.toPublicKey = .ok key ↔ k.kty = family ∧ Denotes k.n key.modulus ∧
      Denotes k.e key.exponent ∧ key.isValid = true := by
  constructor
  · intro h
    unfold toPublicKey at h
    split at h
    · cases h
    · next hfamily =>
      -- a number that cannot be read ends the reading
      cases hn : decodeNumber "n" k.n with
      | error e =>
        rw [hn] at h
        cases h
      | ok modulus =>
        cases he : decodeNumber "e" k.e with
        | error e =>
          rw [hn, he] at h
          cases h
        | ok exponent =>
          simp only [hn, he, bind, Except.bind] at h
          split at h
          · next hvalid =>
            cases h
            exact ⟨not_not.mp hfamily, decodeNumber_eq_ok_iff.mp hn, decodeNumber_eq_ok_iff.mp he,
              hvalid⟩
          · cases h
  · intro h
    obtain ⟨hfamily, hn, he, hvalid⟩ := h
    unfold toPublicKey
    rw [if_neg (not_not.mpr hfamily), decodeNumber_eq_ok_iff.mpr hn, decodeNumber_eq_ok_iff.mpr he]
    exact if_pos hvalid

/-! ## The canonical form -/

/-- The exchange form that is made from the key which an exchange form denotes. -/
def canonical (k : Jwk) : Except Error Jwk := k.toPublicKey.map ofPublicKey

/-- A number denotes itself in the form without zeros and padding. -/
theorem denotes_encodeNumber (n : Nat) : Denotes (encodeNumber n) n :=
  decodeNumber_eq_ok_iff.mp (decodeNumber_encodeNumber "n" n)

/-- A text denotes one number at most. -/
theorem Denotes.unique {text : String} {n m : Nat} (hn : Denotes text n) (hm : Denotes text m) :
    n = m := by
  have hread : decodeNumber "n" text = .ok n := decodeNumber_eq_ok_iff.mpr hn
  rw [decodeNumber_eq_ok_iff.mpr hm] at hread
  exact (Except.ok.inj hread).symm

/-- Keys of one canonical form are one key. -/
theorem ofPublicKey_injective : Function.Injective ofPublicKey := by
  intro key key' h
  have hn : encodeNumber key.modulus = encodeNumber key'.modulus := congrArg Jwk.n h
  have he : encodeNumber key.exponent = encodeNumber key'.exponent := congrArg Jwk.e h
  have hmodulus := (denotes_encodeNumber key.modulus).unique (hn ▸ denotes_encodeNumber key'.modulus)
  have hexponent :=
    (denotes_encodeNumber key.exponent).unique (he ▸ denotes_encodeNumber key'.exponent)
  cases key
  cases key'
  cases hmodulus
  cases hexponent
  rfl

theorem canonical_of_toPublicKey {k : Jwk} {key : PublicKey} (h : k.toPublicKey = .ok key) :
    k.canonical = .ok (ofPublicKey key) := by
  unfold canonical
  rw [h]
  rfl

/-- The canonical form of a usable key denotes the key. -/
theorem toPublicKey_ofPublicKey_of_isValid {key : PublicKey} (h : key.isValid = true) :
    (ofPublicKey key).toPublicKey = .ok key := by
  rw [toPublicKey_ofPublicKey, if_pos h]

/-- **Keys go round, and their canonical form tells the key alone.**  A key that was read is read
from the form made of it.  The forms from which it is read are those of its family whose numbers
denote its own, with any zeros in front, any padding, any name and any scheme, and all of them have
this one canonical form; a form that denotes another key has another. -/
theorem canonical_exact {k : Jwk} {key : PublicKey} (h : k.toPublicKey = .ok key) :
    (ofPublicKey key).toPublicKey = .ok key ∧ k.canonical = .ok (ofPublicKey key) ∧
    (∀ k' : Jwk, k'.toPublicKey = .ok key ↔
      k'.kty = family ∧ Denotes k'.n key.modulus ∧ Denotes k'.e key.exponent) ∧
    ∀ (k' : Jwk) (key' : PublicKey), k'.toPublicKey = .ok key' →
      (k'.canonical = k.canonical ↔ key' = key) := by
  obtain ⟨-, -, -, hvalid⟩ := toPublicKey_eq_ok_iff.mp h
  have hcanonical := canonical_of_toPublicKey h
  refine ⟨toPublicKey_ofPublicKey_of_isValid hvalid, hcanonical, ?_, ?_⟩
  · intro k'
    rw [toPublicKey_eq_ok_iff]
    simp only [hvalid, and_true]
  · intro k' key' h'
    rw [hcanonical, canonical_of_toPublicKey h', Except.ok.injEq]
    exact ofPublicKey_injective.eq_iff

/-- The key of modulus 65539 and exponent 3, in a form with a zero byte and padding and in its
canonical one, which has neither. -/
theorem canonical_exact_padded :
    let k : Jwk := ⟨"RSA", "AAEAAw==", "AAM=", some "key 1", none⟩
    let key : PublicKey := ⟨65539, 3⟩
    k.toPublicKey = .ok key ∧ (ofPublicKey key).n = "AQAD" ∧ (ofPublicKey key).e = "Aw" ∧
      (ofPublicKey key).toPublicKey = .ok key ∧ k.canonical = (ofPublicKey key).canonical := by
  intro k key
  have hread : k.toPublicKey = .ok key := by decide +kernel
  have hnumbers : (ofPublicKey key).n = "AQAD" ∧ (ofPublicKey key).e = "Aw" := by decide +kernel
  obtain ⟨hround, -, -, hsame⟩ := canonical_exact hread
  exact ⟨hread, hnumbers.1, hnumbers.2, hround, ((hsame _ key hround).mpr rfl).symm⟩

end Jwk

end Coordination
