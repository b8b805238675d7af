import Coordination.Proofs.Json.Quoted
import Coordination.Proofs.Text.Offsets
import Coordination.Proofs.Uri.Hosts
import Mathlib.Data.String.Basic
/-!
# Canonical hosts read back

The text of a host is canonical: reading it again gives the same host.  For a name this is so since
it holds small ASCII characters alone and no escape, which neither unescaping, nor the mapping of
names, nor the coding of labels changes; for an address of numbers since the numbers are those that
its text writes.  Main statements: `isHost_of_specialHost?` (the text that is read as a host is
canonical), `IsHost.specialHost?_eq` (a canonical text is read as it stands).
-/

namespace Coordination

/-! ## Pieces -/

namespace Text

/-- What stands in a text of pieces is a separator or stands in a piece. -/
theorem of_mem_joinChars {sep c : Char} {pieces : List (List Char)}
    (h : c ∈ joinChars sep pieces) : c = sep ∨ ∃ piece ∈ pieces, c ∈ piece := by
  induction pieces with
  | nil => cases h
  | cons piece pieces ih =>
    cases pieces with
    | nil => exact .inr ⟨piece, List.mem_cons_self, h⟩
    | cons next rest =>
      rw [joinChars_cons (List.cons_ne_nil next rest), List.mem_append, List.mem_cons] at h
      rcases h with h | h | h
      · exact .inr ⟨piece, List.mem_cons_self, h⟩
      · exact .inl h
      · exact (ih h).imp_right fun ⟨p, hp, hc⟩ => ⟨p, List.mem_cons_of_mem _ hp, hc⟩

theorem mem_joinChars {sep c : Char} {pieces : List (List Char)} {piece : List Char}
    (hpiece : piece ∈ pieces) (hc : c ∈ piece) : c ∈ joinChars sep pieces := by
  induction pieces with
  | nil => cases hpiece
  | cons first pieces ih =>
    cases pieces with
    | nil => rwa [List.mem_singleton.mp hpiece] at hc
    | cons next rest =>
      rw [joinChars_cons (List.cons_ne_nil next rest), List.mem_append, List.mem_cons]
      rcases List.mem_cons.mp hpiece with rfl | hpiece
      · exact .inl hc
      · exact .inr (.inr (ih hpiece))

theorem mem_of_mem_splitChars {sep c : Char} {cs piece : List Char}
    (hpiece : piece ∈ splitChars sep cs) (hc : c ∈ piece) : c ∈ cs := by
  rw [← joinChars_splitChars sep cs]
  exact mem_joinChars hpiece hc

end Text

namespace Uri

/-! ## Characters of names -/

/-- A character that the mapping of names leaves alone. -/
def IsSmall (c : Char) : Prop := c.toNat < 0x80 ∧ c.isUpper = false

instance : DecidablePred IsSmall := fun _ => inferInstanceAs (Decidable (_ ∧ _))

theorem le_of_isUpper {c : Char} (h : c.isUpper = true) : c.toNat ≤ 0x5a :=
  UInt32.le_iff_toNat_le.mp (of_decide_eq_true h : 'A'.val ≤ c.val ∧ c.val ≤ 'Z'.val).2

theorem le_of_isLower {c : Char} (h : c.isLower = true) : c.toNat ≤ 0x7a :=
  UInt32.le_iff_toNat_le.mp (of_decide_eq_true (Bool.and_eq_true_iff.mp h).2 : c.val ≤ 'z'.val)

theorem isUpper_of_le {c : Char} (h : 0x80 ≤ c.toNat) : c.isUpper = false := by
  by_contra hupper
  have hle := le_of_isUpper (Bool.not_eq_false _ ▸ hupper)
  omega

theorem toNat_ofNat_of_lt {n : Nat} (h : n < 0xd800) : (Char.ofNat n).toNat = n := by
  unfold Char.ofNat
  rw [dif_pos (Or.inl h)]
  rfl

/-- A property of all ASCII characters, from one of their codes. -/
theorem forall_ascii {P : Char → Prop} (h : ∀ n < 0x80, P (Char.ofNat n)) {c : Char}
    (hc : c.toNat < 0x80) : P c := by
  rw [← Char.ofNat_toNat c]
  exact h c.toNat hc

/-- A property of the characters of a text, checked one after another. -/
theorem forall_mem_of_all {P : Char → Prop} [DecidablePred P] {cs : List Char}
    (h : cs.all (fun c => decide (P c)) = true) : ∀ c ∈ cs, P c :=
  fun c hc => of_decide_eq_true (List.all_eq_true.mp h c hc)

theorem IsSmall.nameChars_eq {c : Char} (h : IsSmall c) : nameChars c = [c] :=
  forall_ascii (P := fun c => c.isUpper = false → nameChars c = [c]) (by decide +kernel) h.1 h.2

theorem le_of_precedesLower {n : Nat} (h : precedesLower n = true) : n ≤ 0x1eff := by
  simp only [precedesLower, List.any_cons, List.any_nil, Bool.or_false, Bool.or_eq_true,
    Bool.and_eq_true, decide_eq_true_eq] at h
  omega

/-- Beyond ASCII the lower-case form of a letter is beyond ASCII, too. -/
theorem le_toNat_lowerLetter {c : Char} (h : 0x80 ≤ c.toNat) : 0x80 ≤ (lowerLetter c).toNat := by
  unfold lowerLetter
  dsimp only
  -- every branch that changes the character gives one that is no less than before, or 0xff
  split
  · rw [toNat_ofNat_of_lt (by omega)]
    omega
  · split
    · rw [toNat_ofNat_of_lt (by omega)]
      omega
    · split
      · decide
      · split
        · next hpair =>
          have hle := le_of_precedesLower hpair
          rw [toNat_ofNat_of_lt (by omega)]
          omega
        · exact h

theorem isUpper_lowerLetter (c : Char) : (lowerLetter c).isUpper = false := by
  by_cases hascii : c.toNat < 0x80
  · exact forall_ascii (P := fun c => (lowerLetter c).isUpper = false) (by decide +kernel) hascii
  · exact isUpper_of_le (le_toNat_lowerLetter (Nat.le_of_not_lt hascii))

/-- A name holds no capital. -/
theorem isUpper_of_mem_nameChars {c d : Char} (h : d ∈ nameChars c) : d.isUpper = false := by
  unfold nameChars at h
  dsimp only at h
  split at h
  · cases h
  · split at h
    · rw [List.mem_singleton.mp h]
      decide
    · split at h
      · rw [List.mem_singleton.mp h]
        exact isUpper_lowerLetter _
      · rw [List.mem_singleton.mp h]
        cases hplain : plainForms.lookup c.toNat with
        | none => exact isUpper_lowerLetter c
        | some plain =>
          -- the table is finite, and none of its forms is an upper letter
          have hall : ∀ p ∈ plainForms, p.2.isUpper = false := by decide +kernel
          obtain ⟨before, after, heq, -⟩ := List.lookup_eq_some_iff.mp hplain
          exact hall (c.toNat, plain) (heq ▸ List.mem_append_right _ List.mem_cons_self)

/-! ## Labels -/

namespace Punycode

theorem isSmall_digit : ∀ n < 36, IsSmall (digit n) ∧ digit n ≠ '.' := by decide

theorem threshold_bounds (k bias : Nat) : 1 ≤ threshold k bias ∧ threshold k bias ≤ 26 := by
  unfold threshold
  split
  · omega
  · split <;> omega

theorem isSmall_of_mem_distance {bias fuel q k : Nat} {c : Char}
    (h : c ∈ distance bias fuel q k) : IsSmall c ∧ c ≠ '.' := by
  induction fuel generalizing q k with
  | zero => cases h
  | succ fuel ih =>
    obtain ⟨hlow, hhigh⟩ := threshold_bounds k bias
    unfold distance at h
    dsimp only at h
    split at h
    · rw [List.mem_singleton.mp h]
      exact isSmall_digit q (by omega)
    · rcases List.mem_cons.mp h with heq | hmem
      · have hrest := Nat.mod_lt (q - threshold k bias) (by omega : 0 < 36 - threshold k bias)
        rw [heq]
        exact isSmall_digit _ (by omega)
      · exact ih hmem

/-- Coding only adds digits to what was written. -/
theorem mem_out_insertAll {basic : Nat} {name ms : List Nat} {n : Nat} {p : Progress}
    (hp : ∀ c ∈ p.out, IsSmall c ∧ c ≠ '.') :
    ∀ c ∈ (insertAll basic name ms n p).out, IsSmall c ∧ c ≠ '.' := by
  have hvisit : ∀ (m : Nat) (p : Progress) (c : Nat), (∀ d ∈ p.out, IsSmall d ∧ d ≠ '.') →
      ∀ d ∈ (p.visit basic m c).out, IsSmall d ∧ d ≠ '.' := by
    intro m p c hp d hd
    unfold Progress.visit at hd
    split at hd
    · exact hp d hd
    · split at hd
      · rcases List.mem_append.mp hd with hd | hd
        · exact hp d hd
        · exact isSmall_of_mem_distance hd
      · exact hp d hd
  have hpass : ∀ (m : Nat) (name : List Nat) (p : Progress),
      (∀ d ∈ p.out, IsSmall d ∧ d ≠ '.') →
      ∀ d ∈ (name.foldl (Progress.visit basic m) p).out, IsSmall d ∧ d ≠ '.' := by
    intro m name
    induction name with
    | nil => exact fun p hp => hp
    | cons c name ih => exact fun p hp => ih _ (hvisit m p c hp)
  -- for each code point the whole name is passed over once
  induction ms generalizing n p with
  | nil => exact hp
  | cons m ms ih => exact ih (hpass m name _ hp)

/-- The code points beyond ASCII of a label, the lowest first. -/
theorem others_eq_nil_iff {name ns : List Nat} :
    name.foldl (fun ns n => if n < 128 then ns else insertSorted n ns) ns = [] ↔
      ns = [] ∧ ∀ n ∈ name, n < 128 := by
  -- what was inserted once stays, so that the list is empty only if nothing ever was
  have hinsert : ∀ n ns, insertSorted n ns ≠ [] := by
    intro n ns
    cases ns with
    | nil => exact List.cons_ne_nil _ _
    | cons m ms =>
      unfold insertSorted
      split
      · exact List.cons_ne_nil _ _
      · split <;> exact List.cons_ne_nil _ _
  induction name generalizing ns with
  | nil => simp
  | cons n name ih =>
    rw [List.foldl_cons, List.forall_mem_cons]
    refine ih.trans ?_
    by_cases hn : n < 128
    · rw [if_pos hn, and_iff_right hn]
    · rw [if_neg hn]
      exact ⟨fun h => absurd h.1 (hinsert n ns), fun h => absurd h.2.1 hn⟩

/-- A label of ASCII characters is its own code. -/
theorem encode_eq_self {label : List Char} (h : ∀ c ∈ label, c.toNat < 0x80) :
    encode label = label := by
  unfold encode
  refine if_pos (others_eq_nil_iff.mpr ⟨rfl, ?_⟩)
  intro n hn
  obtain ⟨c, hc, rfl⟩ := List.mem_map.mp hn
  exact h c hc

/-- A label without capitals is coded in small characters, and as one label. -/
theorem isSmall_of_mem_encode {label : List Char}
    (h : ∀ c ∈ label, c.isUpper = false ∧ c ≠ '.') {c : Char} (hc : c ∈ encode label) :
    IsSmall c ∧ c ≠ '.' := by
  unfold encode at hc
  dsimp only at hc
  split at hc
  · next hothers =>
    have hascii := (others_eq_nil_iff.mp hothers).2 c.toNat (List.mem_map.mpr ⟨c, hc, rfl⟩)
    exact ⟨⟨hascii, (h c hc).1⟩, (h c hc).2⟩
  · rcases List.mem_append.mp hc with hlead | hout
    · have hlead' : ∀ d ∈ ['x', 'n', '-', '-'], IsSmall d ∧ d ≠ '.' :=
        forall_mem_of_all (by decide)
      exact hlead' c hlead
    · refine mem_out_insertAll (fun d hd => ?_) c hout
      -- the ASCII characters of the label stand in front
      have hfilter : ∀ d ∈ label.filter (fun c => decide (c.toNat < 128)), IsSmall d ∧ d ≠ '.' := by
        intro d hd
        obtain ⟨hd, hascii⟩ := List.mem_filter.mp hd
        exact ⟨⟨of_decide_eq_true hascii, (h d hd).1⟩, (h d hd).2⟩
      dsimp only at hd
      split at hd
      · cases hd
      · rcases List.mem_append.mp hd with hd | hd
        · exact hfilter d hd
        · rw [List.mem_singleton.mp hd]
          decide

end Punycode

/-! ## Names -/

/-- The characters of a name that is not an address of numbers, or of one that is. -/
structure IsName (cs : List Char) : Prop where
  nonempty : cs ≠ []
  small : ∀ c ∈ cs, IsSmall c
  allowed : ¬ cs.any isForbidden = true

theorem unescapeBytes_of_not_mem {cs : List Char} (h : '%' ∉ cs) :
    unescapeBytes cs = cs.flatMap String.utf8EncodeChar := by
  induction cs with
  | nil => rfl
  | cons c cs ih =>
    obtain ⟨hc, hcs⟩ := not_or.mp (fun hmem => h (List.mem_cons.mpr hmem))
    have hne : c ≠ '%' := Ne.symm hc
    match cs with
    | [] => simp [unescapeBytes]
    | [d] => simp [unescapeBytes]
    | high :: low :: rest => 
      rw [unescapeBytes, if_neg hne, ih hcs]
      rfl

theorem fromUTF8?_flatMap (cs : List Char) :
    String.fromUTF8? ⟨(cs.flatMap String.utf8EncodeChar).toArray⟩ = some (String.ofList cs) := by
  have hbytes : (⟨(cs.flatMap String.utf8EncodeChar).toArray⟩ : ByteArray) =
      (String.ofList cs).toByteArray := by
    rw [String.toByteArray_ofList]
    exact ByteArray.ext List.data_toByteArray.symm
  unfold String.fromUTF8?
  rw [hbytes, dif_pos (String.isValidUTF8 _)]
  rfl

/-- The labels of a text without capitals are coded in small characters. -/
theorem isSmall_joinChars_encode {lower : List Char} (h : ∀ c ∈ lower, c.isUpper = false) :
    ∀ c ∈ Text.joinChars '.' ((Text.splitChars '.' lower).map Punycode.encode), IsSmall c := by
  intro c hc
  rcases Text.of_mem_joinChars hc with rfl | ⟨piece, hpiece, hc⟩
  · decide
  · obtain ⟨label, hlabel, rfl⟩ := List.mem_map.mp hpiece
    have hchars : ∀ d ∈ label, d.isUpper = false ∧ d ≠ '.' := by
      intro d hd
      refine ⟨h d (Text.mem_of_mem_splitChars hlabel hd), ?_⟩
      rintro rfl
      exact Text.not_mem_of_mem_splitChars hlabel hd
    exact (Punycode.isSmall_of_mem_encode hchars hc).1

/-- A name is mapped and coded to itself. -/
theorem IsName.specialHost?_eq {cs : List Char} (h : IsName cs) :
    specialHost? cs =
      if endsInNumber cs then (ipv4? cs).map fun n => String.ofList (ipv4Chars n)
      else some (String.ofList cs) := by
  have hallowed : ∀ c ∈ cs, isForbidden c = false := by
    have := h.allowed
    simpa using this
  have hbracket : cs.head? ≠ some '[' := by
    intro hhead
    have := hallowed '[' (List.mem_of_head? hhead)
    exact absurd this (by decide)
  have hpercent : '%' ∉ cs := fun hmem => absurd (hallowed '%' hmem) (by decide)
  have hlower : cs.flatMap nameChars = cs := by
    rw [List.flatMap_def, List.map_congr_left fun c hc => (h.small c hc).nameChars_eq]
    exact List.flatMap_singleton' cs
  have hcode : Text.joinChars '.' ((Text.splitChars '.' cs).map Punycode.encode) = cs := by
    have hself : (Text.splitChars '.' cs).map Punycode.encode = Text.splitChars '.' cs := by
      refine (List.map_congr_left fun label hlabel => ?_).trans (List.map_id _)
      refine Punycode.encode_eq_self fun c hc => (h.small c ?_).1
      exact Text.mem_of_mem_splitChars hlabel hc
    rw [hself, Text.joinChars_splitChars]
  -- no bracket, nothing to unescape, no character that is mapped, no label that is coded
  unfold specialHost?
  rw [if_neg hbracket, unescapeBytes_of_not_mem hpercent, fromUTF8?_flatMap, Option.bind_some]
  dsimp only
  rw [String.toList_ofList, hlower, hcode, if_neg (not_or.mpr ⟨h.nonempty, h.allowed⟩)]

/-! ## Addresses of four numbers -/

theorem mem_digits {c : Char} (h : c.isDigit = true) : c ∈ "0123456789".toList := by
  have hascii : c.toNat < 0x80 :=
    (Char.isDigit_iff_toNat.mp h).2.trans_lt (by decide : '9'.toNat < 0x80)
  exact forall_ascii (P := fun c => c.isDigit = true → c ∈ "0123456789".toList)
    (by decide +kernel) hascii h

theorem ipv4Number?_toDigits :
    ∀ n < 256, ipv4Number? (Nat.toDigits 10 n) = some n := by
  decide +kernel

/-- The text of an address has the four numbers as its labels. -/
theorem labels_ipv4Chars (n : Nat) :
    labels (ipv4Chars n) =
      [n / 16777216, n / 65536 % 256, n / 256 % 256, n % 256].map (Nat.toDigits 10) := by
  have hdots : ∀ piece ∈ [n / 16777216, n / 65536 % 256, n / 256 % 256, n % 256].map
      (Nat.toDigits 10), '.' ∉ piece := by
    intro piece hpiece hmem
    obtain ⟨part, -, rfl⟩ := List.mem_map.mp hpiece
    exact absurd (Nat.isDigit_of_mem_toDigits (by omega) (by omega) hmem) (by decide)
  have hsplit := Text.splitChars_joinChars (by simp) hdots
  unfold labels ipv4Chars
  rw [hsplit]
  refine if_neg ?_
  rintro ⟨hlast, -⟩
  exact Nat.toDigits_ne_nil (Option.some.inj hlast)

theorem ipv4?_ipv4Chars {n : Nat} (h : n < 256 ^ 4) : ipv4? (ipv4Chars n) = some n := by
  have hparts : (labels (ipv4Chars n)).mapM ipv4Number? =
      some [n / 16777216, n / 65536 % 256, n / 256 % 256, n % 256] := by
    rw [labels_ipv4Chars]
    simp only [List.map_cons, List.map_nil, List.mapM_cons, List.mapM_nil,
      ipv4Number?_toDigits _ (by omega : n / 16777216 < 256),
      ipv4Number?_toDigits _ (by omega : n / 65536 % 256 < 256),
      ipv4Number?_toDigits _ (by omega : n / 256 % 256 < 256),
      ipv4Number?_toDigits _ (by omega : n % 256 < 256)]
    rfl
  unfold ipv4?
  rw [hparts, Option.bind_some]
  unfold ipv4OfParts?
  simp
  omega

/-- Digits to a base write a number with as many digits. -/
theorem foldl_lt_pow {base high k : Nat} {ns : List Nat} (h : ∀ n ∈ ns, n < base)
    (hhigh : high < base ^ k) :
    ns.foldl (fun n p => n * base + p) high < base ^ (k + ns.length) := by
  induction ns generalizing high k with
  | nil => exact hhigh
  | cons n ns ih =>
    obtain ⟨hn, hns⟩ := List.forall_mem_cons.mp h
    have hnext : high * base + n < base ^ (k + 1) :=
      calc high * base + n < high * base + base := Nat.add_lt_add_left hn _
        _ = (high + 1) * base := (Nat.succ_mul _ _).symm
        _ ≤ base ^ k * base := Nat.mul_le_mul_right _ hhigh
        _ = base ^ (k + 1) := (Nat.pow_succ ..).symm
    rw [List.foldl_cons, List.length_cons, Nat.add_comm ns.length, ← Nat.add_assoc]
    exact ih hns hnext

/-- The numbers of an address make one of four bytes. -/
theorem lt_of_ipv4OfParts? {ns : List Nat} {n : Nat} (h : ipv4OfParts? ns = some n) :
    n < 256 ^ 4 := by
  unfold ipv4OfParts? at h
  split at h
  · cases h
  · next last front hns =>
    rw [Option.ite_none_left_eq_some] at h
    obtain ⟨hbounds, h⟩ := h
    simp only [not_or, Nat.not_lt, Nat.not_le, List.any_eq_true, decide_eq_true_eq, not_exists,
      not_and] at hbounds
    obtain ⟨hlength, hfront, hlast⟩ := hbounds
    have hcount : ns.length = front.length + 1 := by
      rw [← List.length_reverse, hns, List.length_cons]
    have hhigh : front.reverse.foldl (fun n p => n * 256 + p) 0 < 256 ^ front.length := by
      have hbytes : ∀ p ∈ front.reverse, p < 256 := fun p hp =>
        Nat.lt_succ_of_le (hfront p (List.mem_reverse.mp hp))
      have hlt := foldl_lt_pow hbytes (by decide : 0 < 256 ^ 0)
      rwa [Nat.zero_add, List.length_reverse] at hlt
    rw [hcount] at hlength hlast h
    cases h
    -- the last number fills the bytes that the others leave
    have hpow : 256 ^ front.length * 256 ^ (5 - (front.length + 1)) = 256 ^ 4 := by
      rw [← Nat.pow_add]
      congr 1
      omega
    calc _ < _ * 256 ^ (5 - (front.length + 1)) + 256 ^ (5 - (front.length + 1)) :=
            Nat.add_lt_add_left hlast _
      _ = (_ + 1) * 256 ^ (5 - (front.length + 1)) := (Nat.succ_mul _ _).symm
      _ ≤ 256 ^ front.length * 256 ^ (5 - (front.length + 1)) := Nat.mul_le_mul_right _ hhigh
      _ = 256 ^ 4 := hpow

theorem endsInNumber_ipv4Chars (n : Nat) : endsInNumber (ipv4Chars n) = true := by
  have hdigits : (Nat.toDigits 10 (n % 256)).all Char.isDigit = true :=
    List.all_eq_true.mpr fun c hc => Nat.isDigit_of_mem_toDigits (by omega) (by omega) hc
  unfold endsInNumber
  rw [labels_ipv4Chars]
  simp [hdigits, Nat.toDigits_ne_nil]

theorem isName_ipv4Chars (n : Nat) : IsName (ipv4Chars n) := by
  have hchars : ∀ c ∈ ipv4Chars n, IsSmall c ∧ isForbidden c = false := by
    intro c hc
    rcases Text.of_mem_joinChars hc with rfl | ⟨piece, hpiece, hc⟩
    · decide
    · obtain ⟨part, -, rfl⟩ := List.mem_map.mp hpiece
      have hall : ∀ d ∈ "0123456789".toList, IsSmall d ∧ isForbidden d = false :=
        forall_mem_of_all (by decide)
      exact hall c (mem_digits (Nat.isDigit_of_mem_toDigits (by omega) (by omega) hc))
  refine ⟨fun hnil => ?_, fun c hc => (hchars c hc).1, ?_⟩
  · have hlabels := labels_ipv4Chars n
    rw [hnil] at hlabels
    -- no text has one label, which is empty
    exact absurd (show 1 = 4 from congrArg List.length hlabels) (by decide)
  · rw [List.any_eq_true]
    rintro ⟨c, hc, hforbidden⟩
    rw [(hchars c hc).2] at hforbidden
    cases hforbidden

/-! ## Addresses of eight groups -/

section Groups

open Text

theorem lowerDigits_ne_nil (n : Nat) : Hex.lowerDigits n ≠ [] := by
  unfold Hex.lowerDigits
  split
  · exact List.cons_ne_nil _ _
  · exact List.append_ne_nil_of_right_ne_nil _ (List.cons_ne_nil _ _)

/-- A character of the text of a group. -/
def IsGroupChar (c : Char) : Prop := c ∈ "0123456789abcdef".toList

instance : DecidablePred IsGroupChar := fun _ => inferInstanceAs (Decidable (_ ∈ _))

theorem isGroupChar_lowerDigit : ∀ n < 16, IsGroupChar (Hex.lowerDigit n) := by
  decide

theorem isGroupChar_of_mem_lowerDigits {n : Nat} {c : Char} (h : c ∈ Hex.lowerDigits n) :
    IsGroupChar c := by
  induction n using Nat.strongRecOn with
  | _ n ih =>
    unfold Hex.lowerDigits at h
    split at h
    · next hsmall =>
      rw [List.mem_singleton.mp h]
      exact isGroupChar_lowerDigit n hsmall
    · next hlarge =>
      rcases List.mem_append.mp h with h | h
      · exact ih (n / 16) (by omega) h
      · rw [List.mem_singleton.mp h]
        exact isGroupChar_lowerDigit _ (Nat.mod_lt n (by omega))

/-- A number has no more digits than its bound. -/
theorem length_lowerDigits_le {n k : Nat} (h : n < 16 ^ (k + 1)) :
    (Hex.lowerDigits n).length ≤ k + 1 := by
  induction k generalizing n with
  | zero =>
    unfold Hex.lowerDigits
    rw [dif_pos (by simpa using h)]
    exact Nat.le_refl 1
  | succ k ih =>
    unfold Hex.lowerDigits
    split
    · exact Nat.succ_le_succ (Nat.zero_le _)
    · rw [List.length_append]
      exact Nat.succ_le_succ (ih (Nat.div_lt_of_lt_mul (by rw [Nat.mul_comm]; exact h)))

/-- The digits of a number write it. -/
theorem mapM_digit?_lowerDigits (n : Nat) :
    ((Hex.lowerDigits n).mapM Hex.digit?).map (fun ds => ds.foldl (fun n d => n * 16 + d) 0) =
      some n := by
  induction n using Nat.strongRecOn with
  | _ n ih =>
    unfold Hex.lowerDigits
    split
    · next hsmall =>
      rw [List.mapM_cons, Json.digit?_lowerDigit n hsmall]
      simp
    · next hlarge =>
      obtain ⟨ds, hds, hfront⟩ := Option.map_eq_some_iff.mp (ih (n / 16) (by omega))
      rw [List.mapM_append, hds, List.mapM_cons,
        Json.digit?_lowerDigit _ (Nat.mod_lt n (by omega))]
      simp [hfront]
      omega

theorem group?_lowerDigits {g : Nat} (h : g < 65536) : group? (Hex.lowerDigits g) = some g := by
  have hlength := length_lowerDigits_le (show g < 16 ^ (3 + 1) from h)
  unfold group?
  rw [if_neg (not_or.mpr ⟨lowerDigits_ne_nil g, Nat.not_lt.mpr hlength⟩)]
  exact mapM_digit?_lowerDigits g

def groupChars (gs : List Nat) : List Char := joinChars ':' (gs.map Hex.lowerDigits)

theorem of_mem_groupChars {gs : List Nat} {c : Char} (h : c ∈ groupChars gs) :
    c = ':' ∨ IsGroupChar c := by
  refine (of_mem_joinChars h).imp_right ?_
  rintro ⟨piece, hpiece, hc⟩
  obtain ⟨g, -, rfl⟩ := List.mem_map.mp hpiece
  exact isGroupChar_of_mem_lowerDigits hc

theorem groupChars_cons (g : Nat) {gs : List Nat} (h : gs ≠ []) :
    groupChars (g :: gs) = Hex.lowerDigits g ++ ':' :: groupChars gs := by
  unfold groupChars
  rw [List.map_cons, joinChars_cons (by simpa using h)]

/-- The text of groups begins with a digit. -/
theorem groupChars_cons_ne_nil (g : Nat) (gs : List Nat) :
    ∃ c cs, groupChars (g :: gs) = c :: cs ∧ IsGroupChar c := by
  obtain ⟨c, cs, hdigits⟩ := List.exists_cons_of_ne_nil (lowerDigits_ne_nil g)
  have hc : IsGroupChar c := isGroupChar_of_mem_lowerDigits (hdigits ▸ List.mem_cons_self)
  cases gs with
  | nil => exact ⟨c, cs, hdigits, hc⟩
  | cons next rest =>
    rw [groupChars_cons g (List.cons_ne_nil next rest), hdigits]
    exact ⟨c, _, rfl, hc⟩

theorem mapM_group?_lowerDigits {gs : List Nat} (h : ∀ g ∈ gs, g < 65536) :
    (gs.map Hex.lowerDigits).mapM group? = some gs := by
  induction gs with
  | nil => rfl
  | cons g gs ih =>
    obtain ⟨hg, hgs⟩ := List.forall_mem_cons.mp h
    rw [List.map_cons, List.mapM_cons, group?_lowerDigits hg, ih hgs]
    rfl

theorem groups?_groupChars {gs : List Nat} (h : ∀ g ∈ gs, g < 65536) :
    groups? (groupChars gs) = some gs := by
  rcases List.eq_nil_or_concat' gs with rfl | ⟨front, last, rfl⟩
  · rfl
  · obtain ⟨hfront, hlast⟩ := List.forall_mem_append.mp h
    -- no group holds a colon, so the text is cut where it was joined
    have hsplit : splitChars ':' (groupChars (front ++ [last])) =
        front.map Hex.lowerDigits ++ [Hex.lowerDigits last] := by
      unfold groupChars
      rw [splitChars_joinChars (by simp), List.map_append, List.map_singleton]
      intro piece hpiece hmem
      obtain ⟨g, -, rfl⟩ := List.mem_map.mp hpiece
      exact absurd (isGroupChar_of_mem_lowerDigits hmem) (by decide)
    have hne : groupChars (front ++ [last]) ≠ [] := by
      intro hnil
      rw [hnil] at hsplit
      have hmem : Hex.lowerDigits last ∈ splitChars ':' [] :=
        hsplit ▸ List.mem_append_right _ (List.mem_singleton_self _)
      exact lowerDigits_ne_nil last (List.mem_singleton.mp hmem)
    have hdot : '.' ∉ Hex.lowerDigits last := fun hmem =>
      absurd (isGroupChar_of_mem_lowerDigits hmem) (by decide)
    unfold groups?
    rw [if_neg hne, hsplit]
    simp [mapM_group?_lowerDigits hfront, group?_lowerDigits (hlast last (by simp)), hdot]

/-! ### The run of zeros -/

/-- No two colons stand next to each other, and none at the end. -/
inductive Spaced : List Char → Prop where
  | nil : Spaced []
  | char {c : Char} {cs : List Char} : c ≠ ':' → Spaced cs → Spaced (c :: cs)
  | colon {c : Char} {cs : List Char} : c ≠ ':' → Spaced (c :: cs) → Spaced (':' :: c :: cs)

theorem Spaced.append {cs ds : List Char} (hds : Spaced ds) (h : ∀ c ∈ cs, c ≠ ':') :
    Spaced (cs ++ ds) := by
  induction cs with
  | nil => exact hds
  | cons c cs ih =>
    obtain ⟨hc, hcs⟩ := List.forall_mem_cons.mp h
    exact .char hc (ih hcs)

theorem Spaced.findChars?_eq_none {cs : List Char} (h : Spaced cs) :
    findChars? [':', ':'] cs = none := by
  induction h with
  | nil => rfl
  | char hc _ ih =>
    unfold findChars?
    simp [List.isPrefixOf?, hc.symm, ih]
  | colon hc _ ih =>
    unfold findChars?
    simp [List.isPrefixOf?, hc.symm, ih]

/-- The first pair of colons is the one behind spaced text. -/
theorem Spaced.findChars?_append {cs : List Char} (h : Spaced cs) (ds : List Char) :
    findChars? [':', ':'] (cs ++ ':' :: ':' :: ds) = some (cs, ds) := by
  induction h with
  | nil => simp [findChars?, List.isPrefixOf?]
  | char hc _ ih =>
    rw [List.cons_append]
    unfold findChars?
    simp [List.isPrefixOf?, hc.symm, ih]
  | colon hc _ ih =>
    rw [List.cons_append, List.cons_append] at *
    unfold findChars?
    simp [List.isPrefixOf?, hc.symm, ih]

theorem spaced_groupChars (gs : List Nat) : Spaced (groupChars gs) := by
  have hdigits : ∀ g, ∀ c ∈ Hex.lowerDigits g, c ≠ ':' := by
    rintro g c hc rfl
    exact absurd (isGroupChar_of_mem_lowerDigits hc) (by decide)
  -- on the groups: each is followed by nothing or by a colon and the next
  induction gs with
  | nil => exact .nil
  | cons g gs ih =>
    cases gs with
    | nil =>
      have hone : groupChars [g] = Hex.lowerDigits g ++ [] := (List.append_nil _).symm
      rw [hone]
      exact Spaced.nil.append (hdigits g)
    | cons next rest =>
      rw [groupChars_cons g (List.cons_ne_nil next rest)]
      obtain ⟨c, cs, heq, hc⟩ := groupChars_cons_ne_nil next rest
      rw [heq] at ih ⊢
      refine Spaced.append (.colon ?_ ih) (hdigits g)
      rintro rfl
      exact absurd hc (by decide)

/-- A run of zeros is as many zeros. -/
theorem eq_replicate_append_of_le_zeroRun {n : Nat} {gs : List Nat} (h : n ≤ zeroRun gs) :
    gs = List.replicate n 0 ++ gs.drop n := by
  induction gs generalizing n with
  | nil =>
    obtain rfl := Nat.le_zero.mp h
    rfl
  | cons g gs ih =>
    cases n with
    | zero => rfl
    | succ n =>
      unfold zeroRun at h
      by_cases hg : g = 0
      · rw [List.takeWhile_cons_of_pos (by simpa using hg), List.length_cons] at h
        rw [hg, List.replicate_succ, List.cons_append, List.drop_succ_cons,
          ← ih (Nat.le_of_succ_le_succ h)]
      · rw [List.takeWhile_cons_of_neg (by simpa using hg)] at h
        cases h

/-- The longest run is a run of zeros at its place. -/
theorem longestRun_le_zeroRun (gs : List Nat) :
    (longestRun gs).2 ≤ zeroRun (gs.drop (longestRun gs).1) := by
  -- for any run that the search starts from, as long as it is one
  have hfold : ∀ (is : List Nat) (best : Nat × Nat), best.2 ≤ zeroRun (gs.drop best.1) →
      let found := is.foldl (fun (best : Nat × Nat) i =>
        if best.2 < zeroRun (gs.drop i) then (i, zeroRun (gs.drop i)) else best) best
      found.2 ≤ zeroRun (gs.drop found.1) := by
    intro is
    induction is with
    | nil => exact fun best hbest => hbest
    | cons i is ih =>
      intro best hbest
      refine ih _ ?_
      dsimp only
      split
      · exact Nat.le_refl _
      · exact hbest
  exact hfold _ (0, 0) (Nat.zero_le _)

/-- Groups around a run of zeros, which two colons stand for. -/
theorem ipv6?_around {front back : List Nat} {n : Nat} (hfront : ∀ g ∈ front, g < 65536)
    (hback : ∀ g ∈ back, g < 65536) (hlength : front.length + n + back.length = 8) (hn : 1 ≤ n) :
    ipv6? (groupChars front ++ ':' :: ':' :: groupChars back) =
      some (front ++ List.replicate n 0 ++ back) := by
  have hdot : (groupChars front).contains '.' = false := by
    rw [← Bool.not_eq_true, List.contains_iff_mem]
    exact fun hmem => (of_mem_groupChars hmem).elim (by decide) (by decide)
  have hcount : 8 - front.length - back.length = n := by omega
  unfold ipv6?
  rw [(spaced_groupChars front).findChars?_append]
  dsimp only
  rw [hdot, groups?_groupChars hfront, groups?_groupChars hback]
  simp [hcount]
  omega

/-- The text of an address of eight groups stands between brackets. -/
theorem exists_ipv6Chars_eq (gs : List Nat) :
    ∃ inner, ipv6Chars gs = '[' :: inner ++ [']'] ∧ ∀ c ∈ inner, c = ':' ∨ IsGroupChar c := by
  by_cases hrun : (longestRun gs).2 < 2
  · refine ⟨groupChars gs, ?_, fun c hc => of_mem_groupChars hc⟩
    unfold ipv6Chars
    dsimp only
    rw [if_pos hrun]
    rfl
  · refine ⟨groupChars (gs.take (longestRun gs).1) ++ [':', ':'] ++
      groupChars (gs.drop ((longestRun gs).1 + (longestRun gs).2)), ?_, fun c hc => ?_⟩
    · unfold ipv6Chars
      dsimp only
      rw [if_neg hrun]
      rfl
    · rcases List.mem_append.mp hc with hc | hc
      · rcases List.mem_append.mp hc with hc | hc
        · exact of_mem_groupChars hc
        · exact .inl (by simpa using hc)
      · exact of_mem_groupChars hc

/-- An address of eight groups is read back from its shortest form. -/
theorem bracketed?_ipv6Chars {gs : List Nat} (hlength : gs.length = 8)
    (h : ∀ g ∈ gs, g < 65536) :
    bracketed? (ipv6Chars gs) = some (String.ofList (ipv6Chars gs)) := by
  have hinner : ∀ inner, ipv6? inner = some gs → ipv6Chars gs = '[' :: inner ++ [']'] →
      bracketed? (ipv6Chars gs) = some (String.ofList (ipv6Chars gs)) := by
    intro inner hread heq
    have hbrackets : bracketed? ('[' :: inner ++ [']']) =
        some (String.ofList (ipv6Chars gs)) := by
      simp [bracketed?, hread]
    rwa [← heq] at hbrackets
  -- a single zero is written out, a longer run of zeros as two colons
  by_cases hrun : (longestRun gs).2 < 2
  · refine hinner (groupChars gs) ?_ ?_
    · unfold ipv6?
      rw [(spaced_groupChars gs).findChars?_eq_none]
      dsimp only
      rw [groups?_groupChars h, Option.bind_some, if_pos hlength]
    · unfold ipv6Chars
      dsimp only
      rw [if_pos hrun]
      rfl
  · -- the run of zeros stands between the groups in front of it and those behind it
    have hzeros := eq_replicate_append_of_le_zeroRun (longestRun_le_zeroRun gs)
    rw [List.drop_drop] at hzeros
    have hparts : gs.take (longestRun gs).1 ++ List.replicate (longestRun gs).2 0 ++
        gs.drop ((longestRun gs).1 + (longestRun gs).2) = gs := by
      rw [List.append_assoc, ← hzeros, List.take_append_drop]
    refine hinner (groupChars (gs.take (longestRun gs).1) ++
      ':' :: ':' :: groupChars (gs.drop ((longestRun gs).1 + (longestRun gs).2))) ?_ ?_
    · have hcount : (gs.take (longestRun gs).1).length + (longestRun gs).2 +
          (gs.drop ((longestRun gs).1 + (longestRun gs).2)).length = 8 := by
        rw [← hlength, ← congrArg List.length hparts]
        simp only [List.length_append, List.length_replicate]
      rw [ipv6?_around (fun g hg => h g (List.mem_of_mem_take hg))
        (fun g hg => h g (List.mem_of_mem_drop hg)) hcount (by omega), hparts]
    · unfold ipv6Chars
      dsimp only
      rw [if_neg hrun]
      simp [groupChars]

end Groups

/-! ## Groups that are read -/

/-- A list is read element by element. -/
theorem of_mapM {α β : Type} {f : α → Option β} {l : List α} {l' : List β}
    (h : l.mapM f = some l') : l'.length = l.length ∧ ∀ b ∈ l', ∃ a, f a = some b := by
  induction l generalizing l' with
  | nil =>
    cases h
    exact ⟨rfl, fun b hb => nomatch hb⟩
  | cons a l ih =>
    rw [List.mapM_cons] at h
    obtain ⟨b, hb, h⟩ := Option.bind_eq_some_iff.mp h
    obtain ⟨bs, hbs, h⟩ := Option.bind_eq_some_iff.mp h
    cases h
    exact ⟨congrArg Nat.succ (ih hbs).1, List.forall_mem_cons.mpr ⟨⟨a, hb⟩, (ih hbs).2⟩⟩

theorem lt_of_group? {cs : List Char} {g : Nat} (h : group? cs = some g) : g < 65536 := by
  unfold group? at h
  rw [Option.ite_none_left_eq_some] at h
  obtain ⟨hlength, h⟩ := h
  obtain ⟨ds, hds, rfl⟩ := Option.map_eq_some_iff.mp h
  obtain ⟨hsame, hdigits⟩ := of_mapM hds
  -- at most four digits, each of them below sixteen
  have hsmall : ∀ d ∈ ds, d < 16 := by
    intro d hd
    obtain ⟨c, hc⟩ := hdigits d hd
    exact (Text.Hex.digit?_eq_some_iff.mp hc).lt
  have hcount : ds.length ≤ 4 := by
    rw [hsame]
    exact Nat.le_of_not_lt (not_or.mp hlength).2
  have hlt := foldl_lt_pow hsmall (by decide : 0 < 16 ^ 0)
  rw [Nat.zero_add] at hlt
  exact hlt.trans_le (Nat.pow_le_pow_right (by decide) hcount)

theorem lt_of_mem_quadGroups? {cs : List Char} {gs : List Nat} (h : quadGroups? cs = some gs) :
    ∀ g ∈ gs, g < 65536 := by
  unfold quadGroups? at h
  dsimp only at h
  split at h
  · next a b c d hparts =>
    cases h
    -- the parts are read as numbers up to 255, and two of them make a group
    have hbyte : ∀ n ∈ [a, b, c, d], n ≤ 255 := by
      intro n hn
      obtain ⟨ds, hds⟩ := (of_mapM hparts).2 n hn
      rw [Option.ite_none_left_eq_some] at hds
      obtain ⟨m, -, hm⟩ := Option.bind_eq_some_iff.mp hds.2
      rw [Option.ite_none_right_eq_some] at hm
      obtain ⟨hm, hmn⟩ := hm
      cases hmn
      exact hm
    simp only [List.forall_mem_cons, List.not_mem_nil, false_imp_iff, implies_true, and_true]
      at hbyte ⊢
    omega
  · cases h

theorem lt_of_mem_groups? {cs : List Char} {gs : List Nat} (h : groups? cs = some gs) :
    ∀ g ∈ gs, g < 65536 := by
  unfold groups? at h
  split at h
  · cases h
    exact fun g hg => nomatch hg
  · dsimp only at h
    split at h
    · cases h
    · obtain ⟨front, hfront, h⟩ := Option.bind_eq_some_iff.mp h
      obtain ⟨back, hback, rfl⟩ := Option.map_eq_some_iff.mp h
      refine List.forall_mem_append.mpr ⟨fun g hg => ?_, ?_⟩
      · obtain ⟨cs, hcs⟩ := (of_mapM hfront).2 g hg
        exact lt_of_group? hcs
      · -- the last part is four numbers, or one group
        split at hback
        · exact lt_of_mem_quadGroups? hback
        · obtain ⟨g, hg, rfl⟩ := Option.map_eq_some_iff.mp hback
          exact List.forall_mem_singleton.mpr (lt_of_group? hg)

theorem bounds_of_ipv6? {cs : List Char} {gs : List Nat} (h : ipv6? cs = some gs) :
    gs.length = 8 ∧ ∀ g ∈ gs, g < 65536 := by
  unfold ipv6? at h
  split at h
  · obtain ⟨read, hread, h⟩ := Option.bind_eq_some_iff.mp h
    rw [Option.ite_none_right_eq_some] at h
    obtain ⟨hlength, h⟩ := h
    cases h
    exact ⟨hlength, lt_of_mem_groups? hread⟩
  · next before after _ =>
    rw [Option.ite_none_left_eq_some] at h
    obtain ⟨front, hfront, h⟩ := Option.bind_eq_some_iff.mp h.2
    obtain ⟨back, hback, h⟩ := Option.bind_eq_some_iff.mp h
    rw [Option.ite_none_right_eq_some] at h
    obtain ⟨hcount, h⟩ := h
    cases h
    -- the two colons stand for as many zeros as eight groups leave open
    refine ⟨?_, fun g hg => ?_⟩
    · simp only [List.length_append, List.length_replicate]
      omega
    · rcases List.mem_append.mp hg with hg | hg
      · rcases List.mem_append.mp hg with hg | hg
        · exact lt_of_mem_groups? hfront g hg
        · rw [List.eq_of_mem_replicate hg]
          decide
      · exact lt_of_mem_groups? hback g hg

/-! ## Hosts -/

/-- How a host of the web is written: as a name, or as an address of numbers in either form. -/
inductive IsHost : List Char → Prop where
  | name {cs : List Char} : IsName cs → endsInNumber cs = false → IsHost cs
  | four {n : Nat} : n < 256 ^ 4 → IsHost (ipv4Chars n)
  | eight {gs : List Nat} : gs.length = 8 → (∀ g ∈ gs, g < 65536) → IsHost (ipv6Chars gs)

theorem isHost_of_specialHost? {cs : List Char} {host : String}
    (h : specialHost? cs = some host) : IsHost host.toList := by
  unfold specialHost? at h
  -- in brackets there is an address of eight groups
  split at h
  · unfold bracketed? at h
    split at h
    · rw [Option.ite_none_right_eq_some] at h
      obtain ⟨gs, hgs, rfl⟩ := Option.map_eq_some_iff.mp h.2
      obtain ⟨hlength, hbound⟩ := bounds_of_ipv6? hgs
      rw [String.toList_ofList]
      exact .eight hlength hbound
    · cases h
  · obtain ⟨name, -, h⟩ := Option.bind_eq_some_iff.mp h
    dsimp only at h
    rw [Option.ite_none_left_eq_some] at h
    obtain ⟨hallowed, h⟩ := h
    split at h
    · obtain ⟨n, hn, rfl⟩ := Option.map_eq_some_iff.mp h
      obtain ⟨ns, -, hns⟩ := Option.bind_eq_some_iff.mp hn
      rw [String.toList_ofList]
      exact .four (lt_of_ipv4OfParts? hns)
    · next hnumber =>
      cases h
      rw [String.toList_ofList]
      refine .name ⟨(not_or.mp hallowed).1, isSmall_joinChars_encode ?_, (not_or.mp hallowed).2⟩
        (Bool.not_eq_true _ ▸ hnumber)
      intro c hc
      obtain ⟨d, -, hd⟩ := List.mem_flatMap.mp hc
      exact isUpper_of_mem_nameChars hd

/-- A host that is written so is read as it stands. -/
theorem IsHost.specialHost?_eq {cs : List Char} (h : IsHost cs) :
    specialHost? cs = some (String.ofList cs) := by
  cases h with
  | name hname hnumber =>
    rw [hname.specialHost?_eq, hnumber]
    rfl
  | @four n hn =>
    rw [(isName_ipv4Chars n).specialHost?_eq, endsInNumber_ipv4Chars, ipv4?_ipv4Chars hn]
    rfl
  | eight hlength hbound =>
    obtain ⟨inner, hinner, -⟩ := exists_ipv6Chars_eq _
    have hbracket : (ipv6Chars _).head? = some '[' := congrArg List.head? hinner
    unfold specialHost?
    rw [if_pos hbracket, bracketed?_ipv6Chars hlength hbound]

/-- A host holds nothing that ends the part of an address in which it stands. -/
theorem IsHost.not_endsAuthority {cs : List Char} (h : IsHost cs) :
    ∀ c ∈ cs, 0x20 < c.toNat ∧ endsAuthority true c = false ∧ c ≠ '@' := by
  -- what ends the part is forbidden in a name; this is checked for all of ASCII
  have hname : ∀ {cs}, IsName cs → ∀ c ∈ cs, 0x20 < c.toNat ∧ endsAuthority true c = false ∧
      c ≠ '@' := by
    intro cs hcs c hc
    have hallowed : isForbidden c = false := by
      rw [← Bool.not_eq_true]
      exact fun hforbidden => hcs.allowed (List.any_eq_true.mpr ⟨c, hc, hforbidden⟩)
    exact forall_ascii (P := fun c => isForbidden c = false →
      0x20 < c.toNat ∧ endsAuthority true c = false ∧ c ≠ '@')
      (by decide +kernel) (hcs.small c hc).1 hallowed
  cases h with
  | name hcs _ => exact hname hcs
  | four _ => exact hname (isName_ipv4Chars _)
  | eight _ _ =>
    obtain ⟨inner, hinner, hgroups⟩ := exists_ipv6Chars_eq _
    have hall : ∀ c ∈ '[' :: ']' :: ':' :: "0123456789abcdef".toList,
        0x20 < c.toNat ∧ endsAuthority true c = false ∧ c ≠ '@' := forall_mem_of_all (by decide)
    intro c hc
    refine hall c ?_
    rw [hinner] at hc
    rcases List.mem_append.mp hc with hc | hc
    · rcases List.mem_cons.mp hc with rfl | hc
      · exact List.mem_cons_self
      · rcases hgroups c hc with rfl | hc
        · simp
        · exact List.mem_cons_of_mem _ (List.mem_cons_of_mem _ (List.mem_cons_of_mem _ hc))
    · rw [List.mem_singleton.mp hc]
      simp

/-- The colons of a host stand between brackets. -/
theorem IsHost.colon {cs : List Char} (h : IsHost cs) :
    ':' ∉ cs ∨ ∃ inner, cs = inner ++ [']'] := by
  have hname : ∀ {cs}, IsName cs → ':' ∉ cs := fun hcs hmem =>
    hcs.allowed (List.any_eq_true.mpr ⟨':', hmem, by decide⟩)
  cases h with
  | name hcs _ => exact .inl (hname hcs)
  | four _ => exact .inl (hname (isName_ipv4Chars _))
  | eight _ _ =>
    obtain ⟨inner, hinner, -⟩ := exists_ipv6Chars_eq _
    exact .inr ⟨_, hinner⟩

end Uri

end Coordination
