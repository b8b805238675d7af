import Coordination.Text.Base64
import Coordination.Text.Hex
import Mathlib.Data.List.Basic
import Mathlib.Data.List.Induction
/-!
# Bytes as text and numbers as bytes

Writing bytes in base64 and reading them back gives the same bytes, in either alphabet and with or
without padding, and the text is made of the characters of the alphabet alone.  Reading is strict, so
nothing else than what is written for bytes is read as them.  A number is read back from its bytes,
and from nothing else but these bytes behind zeros.
-/

namespace Coordination.Text

/-! ## Base64 -/

namespace Base64

/-- The value of a character is the one for which the character stands. -/
def Alphabet.Faithful (a : Alphabet) : Prop := ∀ n < 64, a.value? (a.char n) = some n

theorem faithful_standard : standard.Faithful := by
  unfold Alphabet.Faithful
  decide

theorem faithful_urlSafe : urlSafe.Faithful := by
  unfold Alphabet.Faithful
  decide

variable {a : Alphabet}

/-- Six bits of one byte or of two neighbours are below sixty-four. -/
theorem sextets_lt (x y : UInt8) :
    x.toNat / 4 < 64 ∧ x.toNat % 4 * 16 + y.toNat / 16 < 64 ∧ x.toNat % 4 * 16 < 64 ∧
      y.toNat % 16 * 4 < 64 ∧ x.toNat % 16 * 4 + y.toNat / 64 < 64 ∧ x.toNat % 64 < 64 := by
  have hx := x.toNat_lt
  have hy := y.toNat_lt
  omega

/-- A byte is put together from its bits. -/
theorem ofNat_eq_of_toNat {x : UInt8} {n : Nat} (h : n = x.toNat) : UInt8.ofNat n = x := by
  rw [h]
  exact UInt8.ofNat_toNat

/-- **Bytes are read back from their characters.** -/
theorem decodeChars?_encodeChars (ha : a.Faithful) (bytes : List UInt8) :
    a.decodeChars? (a.encodeChars bytes) = some bytes := by
  -- three bytes at a time, with one or two left over, as the characters are written
  induction bytes using Alphabet.encodeChars.induct with
  | case1 => rfl
  | case2 x =>
    obtain ⟨hp, -, hq, -⟩ := sextets_lt x x
    have hx := x.toNat_lt
    simp only [Alphabet.encodeChars, Alphabet.decodeChars?, ha _ hp, ha _ hq, bind, Option.bind]
    rw [if_pos (by omega), ofNat_eq_of_toNat (x := x) (by omega)]
  | case3 x y =>
    obtain ⟨hp, hq, -, hr, -⟩ := sextets_lt x y
    have hx := x.toNat_lt
    have hy := y.toNat_lt
    simp only [Alphabet.encodeChars, Alphabet.decodeChars?, ha _ hp, ha _ hq, ha _ hr, bind,
      Option.bind]
    rw [if_pos (by omega), ofNat_eq_of_toNat (x := x) (by omega),
      ofNat_eq_of_toNat (x := y) (by omega)]
  | case4 x y z rest ih =>
    obtain ⟨hp, hq, -⟩ := sextets_lt x y
    obtain ⟨-, -, -, -, hr, -⟩ := sextets_lt y z
    obtain ⟨-, -, -, -, -, hs⟩ := sextets_lt z z
    have hx := x.toNat_lt
    have hy := y.toNat_lt
    have hz := z.toNat_lt
    simp only [Alphabet.encodeChars, Alphabet.decodeChars?, ha _ hp, ha _ hq, ha _ hr, ha _ hs, ih,
      bind, Option.bind, pure]
    rw [ofNat_eq_of_toNat (x := x) (by omega), ofNat_eq_of_toNat (x := y) (by omega),
      ofNat_eq_of_toNat (x := z) (by omega)]

theorem char_of_value? {c : Char} {n : Nat} (h : a.value? c = some n) : n < 64 ∧ a.char n = c := by
  unfold Alphabet.value? at h
  split at h
  · next hupper =>
    -- the bounds of a range of characters are bounds of their codes
    have hlow : 65 ≤ c.toNat := hupper.1
    have hhigh : c.toNat ≤ 90 := hupper.2
    cases h
    refine ⟨by omega, ?_⟩
    rw [Alphabet.char, if_pos (by omega), Nat.add_sub_cancel' hlow, Char.ofNat_toNat]
  · split at h
    · next hlower =>
      have hlow : 97 ≤ c.toNat := hlower.1
      have hhigh : c.toNat ≤ 122 := hlower.2
      cases h
      refine ⟨by omega, ?_⟩
      rw [Alphabet.char, if_neg (by omega), if_pos (by omega), Nat.add_sub_cancel' (by omega),
        Char.ofNat_toNat]
    · split at h
      · next hdigit =>
        have hlow : 48 ≤ c.toNat := hdigit.1
        have hhigh : c.toNat ≤ 57 := hdigit.2
        cases h
        refine ⟨by omega, ?_⟩
        rw [Alphabet.char, if_neg (by omega), if_neg (by omega), if_pos (by omega),
          Nat.add_sub_cancel, Char.ofNat_toNat]
      · split at h
        · next hc =>
          cases h
          exact ⟨by decide, hc.symm⟩
        · split at h
          · next hc =>
            cases h
            exact ⟨by decide, hc.symm⟩
          · cases h

/-- **Reading is strict**: the characters are those that are written for the bytes. -/
theorem encodeChars_of_decodeChars? {cs : List Char} {bytes : List UInt8}
    (h : a.decodeChars? cs = some bytes) : a.encodeChars bytes = cs := by
  have hbyte : ∀ {n : Nat}, n < 256 → (UInt8.ofNat n).toNat = n := UInt8.toNat_ofNat_of_lt'
  -- along the reader: groups of four, and a last group of two or three characters
  induction cs using Alphabet.decodeChars?.induct generalizing bytes with
  | case1 =>
    cases h
    rfl
  | case2 c => cases h
  | case3 c d =>
    simp only [Alphabet.decodeChars?, Option.bind_eq_bind, Option.bind_eq_some_iff] at h
    obtain ⟨p, hp, q, hq, h⟩ := h
    obtain ⟨hp64, rfl⟩ := char_of_value? hp
    obtain ⟨hq64, rfl⟩ := char_of_value? hq
    split at h
    · next hrest =>
      cases h
      -- the bits that no byte uses are zero, so they are written again
      have hfirst : (p * 4 + q / 16) / 4 = p := by omega
      have hlast : (p * 4 + q / 16) % 4 * 16 = q := by omega
      rw [Alphabet.encodeChars, hbyte (by omega), hfirst, hlast]
    · cases h
  | case4 c d e =>
    simp only [Alphabet.decodeChars?, Option.bind_eq_bind, Option.bind_eq_some_iff] at h
    obtain ⟨p, hp, q, hq, r, hr, h⟩ := h
    obtain ⟨hp64, rfl⟩ := char_of_value? hp
    obtain ⟨hq64, rfl⟩ := char_of_value? hq
    obtain ⟨hr64, rfl⟩ := char_of_value? hr
    split at h
    · next hrest =>
      cases h
      have hfirst : (p * 4 + q / 16) / 4 = p := by omega
      have hsecond : (p * 4 + q / 16) % 4 * 16 + (q % 16 * 16 + r / 4) / 16 = q := by omega
      have hlast : (q % 16 * 16 + r / 4) % 16 * 4 = r := by omega
      rw [Alphabet.encodeChars, hbyte (by omega), hbyte (by omega), hfirst, hsecond, hlast]
    · cases h
  | case5 c d e f rest ih =>
    simp only [Alphabet.decodeChars?, Option.bind_eq_bind, Option.bind_eq_some_iff] at h
    obtain ⟨p, hp, q, hq, r, hr, s, hs, tail, htail, h⟩ := h
    obtain ⟨hp64, rfl⟩ := char_of_value? hp
    obtain ⟨hq64, rfl⟩ := char_of_value? hq
    obtain ⟨hr64, rfl⟩ := char_of_value? hr
    obtain ⟨hs64, rfl⟩ := char_of_value? hs
    cases h
    have hfirst : (p * 4 + q / 16) / 4 = p := by omega
    have hsecond : (p * 4 + q / 16) % 4 * 16 + (q % 16 * 16 + r / 4) / 16 = q := by omega
    have hthird : (q % 16 * 16 + r / 4) % 16 * 4 + (r % 4 * 64 + s) / 64 = r := by omega
    have hlast : (r % 4 * 64 + s) % 64 = s := by omega
    rw [Alphabet.encodeChars, hbyte (by omega), hbyte (by omega), hbyte (by omega), hfirst,
      hsecond, hthird, hlast, ih htail]

/-- The characters are those of the alphabet. -/
theorem exists_char_of_mem_encodeChars {bytes : List UInt8} {c : Char}
    (h : c ∈ a.encodeChars bytes) : ∃ n < 64, c = a.char n := by
  induction bytes using Alphabet.encodeChars.induct with
  | case1 => cases h
  | case2 x =>
    obtain ⟨hp, -, hq, -⟩ := sextets_lt x x
    simp only [Alphabet.encodeChars, List.mem_cons, List.not_mem_nil, or_false] at h
    rcases h with rfl | rfl
    · exact ⟨_, hp, rfl⟩
    · exact ⟨_, hq, rfl⟩
  | case3 x y =>
    obtain ⟨hp, hq, -, hr, -⟩ := sextets_lt x y
    simp only [Alphabet.encodeChars, List.mem_cons, List.not_mem_nil, or_false] at h
    rcases h with rfl | rfl | rfl
    · exact ⟨_, hp, rfl⟩
    · exact ⟨_, hq, rfl⟩
    · exact ⟨_, hr, rfl⟩
  | case4 x y z rest ih =>
    obtain ⟨hp, hq, -⟩ := sextets_lt x y
    obtain ⟨-, -, -, -, hr, -⟩ := sextets_lt y z
    obtain ⟨-, -, -, -, -, hs⟩ := sextets_lt z z
    simp only [Alphabet.encodeChars, List.mem_cons] at h
    rcases h with rfl | rfl | rfl | rfl | h
    · exact ⟨_, hp, rfl⟩
    · exact ⟨_, hq, rfl⟩
    · exact ⟨_, hr, rfl⟩
    · exact ⟨_, hs, rfl⟩
    · exact ih h

/-- A character that stands for nothing in an alphabet does not occur. -/
theorem not_mem_encodeChars {c : Char} (hc : ∀ n < 64, a.char n ≠ c) (bytes : List UInt8) :
    c ∉ a.encodeChars bytes := by
  intro hmem
  obtain ⟨n, hn, hchar⟩ := exists_char_of_mem_encodeChars hmem
  exact hc n hn hchar.symm

theorem length_encodeChars_mod (a : Alphabet) (bytes : List UInt8) :
    (a.encodeChars bytes).length % 4 ≠ 1 := by
  induction bytes using Alphabet.encodeChars.induct with
  | case1 => exact Nat.zero_ne_one
  | case2 x => exact (by decide : 2 % 4 ≠ 1)
  | case3 x y => exact (by decide : 3 % 4 ≠ 1)
  | case4 x y z rest ih =>
    simp only [Alphabet.encodeChars, List.length_cons]
    omega

/-! ### Padding -/

variable {cs : List Char}

theorem dropPad_of_not_mem (h : '=' ∉ cs) : dropPad cs = cs := by
  unfold dropPad
  rw [if_neg]
  intro hlast
  exact h (List.mem_of_getLast? hlast)

theorem dropPad_concat (cs : List Char) : dropPad (cs ++ ['=']) = cs := by
  unfold dropPad
  rw [List.getLast?_concat, if_pos rfl, List.dropLast_concat]

/-- **Bytes are read back from their padded text.** -/
theorem decode?_encode (bytes : List UInt8) : decode? (encode bytes) = some bytes := by
  have hpad : '=' ∉ standard.encodeChars bytes := not_mem_encodeChars (by decide) bytes
  have hrest := length_encodeChars_mod standard bytes
  have hread := decodeChars?_encodeChars faithful_standard bytes
  unfold decode? encode
  dsimp only
  generalize standard.encodeChars bytes = cs at hpad hrest hread
  rw [String.toList_ofList]
  -- no character is missing to a group of four, or two are, or one is
  obtain hzero | htwo | hthree : cs.length % 4 = 0 ∨ cs.length % 4 = 2 ∨ cs.length % 4 = 3 := by
    omega
  · have hpadding : List.replicate ((4 - cs.length % 4) % 4) '=' = [] := by
      rw [hzero]
      rfl
    rw [hpadding, List.append_nil, if_pos hzero, dropPad_of_not_mem hpad,
      dropPad_of_not_mem hpad, hread]
  · have hpadding : cs ++ List.replicate ((4 - cs.length % 4) % 4) '=' =
        cs ++ ['='] ++ ['='] := by
      rw [htwo, List.append_assoc]
      rfl
    have hlength : (cs ++ ['='] ++ ['=']).length % 4 = 0 := by
      simp only [List.length_append, List.length_singleton]
      omega
    rw [hpadding, if_pos hlength, dropPad_concat, dropPad_concat, hread]
  · have hpadding : cs ++ List.replicate ((4 - cs.length % 4) % 4) '=' = cs ++ ['='] := by
      rw [hthree]
      rfl
    have hlength : (cs ++ ['=']).length % 4 = 0 := by
      simp only [List.length_append, List.length_singleton]
      omega
    rw [hpadding, if_pos hlength, dropPad_concat, dropPad_of_not_mem hpad, hread]

theorem quote_not_mem_encode (bytes : List UInt8) : '"' ∉ (encode bytes).toList := by
  unfold encode
  rw [String.toList_ofList, List.mem_append]
  rintro (hchar | hpad)
  · exact not_mem_encodeChars (by decide) bytes hchar
  · cases List.eq_of_mem_replicate hpad

end Base64

/-! ## Numbers -/

namespace Hex

/-- A number is read back from its bytes, whatever follows them. -/
theorem foldl_bytesOfNat_go (n : Nat) (tail : List UInt8) :
    (bytesOfNat.go n tail).foldl (fun n b => 256 * n + b.toNat) 0 =
      tail.foldl (fun n b => 256 * n + b.toNat) n := by
  induction n using Nat.strongRecOn generalizing tail with
  | ind n ih =>
    have hbyte : (UInt8.ofNat (n % 256)).toNat = n % 256 := by
      rw [UInt8.toNat_ofNat']
      omega
    rw [bytesOfNat.go]
    -- the number is its last byte and the bytes of the rest
    by_cases hn : n < 256
    · have hself : (UInt8.ofNat n).toNat = n := by
        rw [UInt8.toNat_ofNat']
        omega
      rw [dif_pos hn, List.foldl_cons, hself]
      simp
    · rw [dif_neg hn, ih (n / 256) (by omega), List.foldl_cons, hbyte]
      congr 1
      omega

theorem natOfBytes_bytesOfNat (n : Nat) : natOfBytes (bytesOfNat n) = n :=
  foldl_bytesOfNat_go n []

/-- What is to follow the bytes of a number stays behind them. -/
theorem bytesOfNat_go_append (n : Nat) (front tail : List UInt8) :
    bytesOfNat.go n (front ++ tail) = bytesOfNat.go n front ++ tail := by
  induction n using Nat.strongRecOn generalizing front with
  | ind n ih =>
    unfold bytesOfNat.go
    split
    · rfl
    · exact ih (n / 256) (by omega) (UInt8.ofNat (n % 256) :: front)

/-- The bytes of a larger number are those of its quotient and one more. -/
theorem bytesOfNat_mul_add {n : Nat} (hn : 0 < n) (b : UInt8) :
    bytesOfNat (256 * n + b.toNat) = bytesOfNat n ++ [b] := by
  have hb := b.toNat_lt
  have hquotient : (256 * n + b.toNat) / 256 = n := by omega
  have hremainder : (256 * n + b.toNat) % 256 = b.toNat := by omega
  unfold bytesOfNat
  rw [bytesOfNat.go, dif_neg (by omega), hquotient, hremainder, UInt8.ofNat_toNat]
  exact bytesOfNat_go_append n [] [b]

theorem natOfBytes_concat (bytes : List UInt8) (b : UInt8) :
    natOfBytes (bytes ++ [b]) = 256 * natOfBytes bytes + b.toNat := by
  unfold natOfBytes
  rw [List.foldl_append]
  rfl

theorem bytesOfNat_toNat (b : UInt8) : bytesOfNat b.toNat = [b] := by
  unfold bytesOfNat
  rw [bytesOfNat.go, dif_pos b.toNat_lt, UInt8.ofNat_toNat]

/-- Zeros in front do not count. -/
theorem natOfBytes_zeros (zeros : Nat) (bytes : List UInt8) :
    natOfBytes (List.replicate zeros 0 ++ bytes) = natOfBytes bytes := by
  induction zeros with
  | zero => rfl
  | succ zeros ih =>
    rw [← ih]
    rfl

/-- Bytes are those of their number behind zeros. -/
theorem exists_eq_zeros_append {bytes : List UInt8} (h : bytes ≠ []) :
    ∃ zeros, bytes = List.replicate zeros 0 ++ bytesOfNat (natOfBytes bytes) := by
  -- by induction from the back, as the last byte is the last one written
  induction bytes using List.reverseRecOn with
  | nil => exact absurd rfl h
  | append_singleton bytes b ih =>
    rw [natOfBytes_concat]
    by_cases hnil : bytes = []
    · refine ⟨0, ?_⟩
      have hzero : 256 * natOfBytes [] + b.toNat = b.toNat := Nat.zero_add _
      rw [hnil, hzero, bytesOfNat_toNat]
      rfl
    · obtain ⟨zeros, hbytes⟩ := ih hnil
      by_cases hpos : 0 < natOfBytes bytes
      · refine ⟨zeros, ?_⟩
        rw [bytesOfNat_mul_add hpos, ← List.append_assoc, ← hbytes]
      · -- nothing but zeros stands in front
        have hzero : natOfBytes bytes = 0 := by omega
        have hbyte : bytesOfNat 0 = [0] := bytesOfNat_toNat 0
        rw [hzero, hbyte] at hbytes
        refine ⟨zeros + 1, ?_⟩
        rw [hzero, Nat.mul_zero, Nat.zero_add, bytesOfNat_toNat, hbytes, List.replicate_succ']

/-- **Bytes write a number** exactly if they are its own bytes behind zeros. -/
theorem natOfBytes_eq_iff {bytes : List UInt8} {n : Nat} (h : bytes ≠ []) :
    natOfBytes bytes = n ↔ ∃ zeros, bytes = List.replicate zeros 0 ++ bytesOfNat n := by
  constructor
  · intro hn
    rw [← hn]
    exact exists_eq_zeros_append h
  · intro hzeros
    obtain ⟨zeros, rfl⟩ := hzeros
    rw [natOfBytes_zeros, natOfBytes_bytesOfNat]

/-- Every number has at least one byte. -/
theorem bytesOfNat_ne_nil (n : Nat) : bytesOfNat n ≠ [] := by
  have hgo : ∀ tail, bytesOfNat.go n tail ≠ [] := by
    induction n using Nat.strongRecOn with
    | ind n ih =>
      intro tail
      rw [bytesOfNat.go]
      split
      · exact List.cons_ne_nil _ _
      · exact ih (n / 256) (by omega) _
  exact hgo []

end Hex

end Coordination.Text
