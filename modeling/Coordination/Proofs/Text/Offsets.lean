import Coordination.Text.Hex
import Mathlib.Data.List.Basic
/-!
# Text by byte offsets

A text can be cut at a byte offset only where a character begins or the text ends.  The parts are
then those of which the text consists: what stands in front of the offset has as many bytes as the
offset says.  Digits of base sixteen, as a reader of bytes takes them, are one byte each.
-/

namespace Coordination.Text

/-! ## Cutting at offsets -/

/-- The text in front of a byte offset and the text from it on.  There is none where the offset lies
inside a character or beyond the end. -/
def cut? (n : Nat) (s : String) : Option (String × String) :=
  if h : (⟨n⟩ : String.Pos.Raw).IsValid s then
    some (⟨s.toByteArray.extract 0 n, h.isValidUTF8_extract_zero⟩,
      ⟨s.toByteArray.extract n s.utf8ByteSize, h.isValidUTF8_extract_utf8ByteSize⟩)
  else none

/-- The text between two byte offsets. -/
def slice? (start stop : Nat) (s : String) : Option String :=
  (cut? stop s).bind fun (before, _) => (cut? start before).map Prod.snd

/-- The byte offset of the first occurrence of a character. -/
def offset? (c : Char) (s : String) : Option Nat :=
  if c ∈ s.toList then some (String.ofList (s.toList.takeWhile (· ≠ c))).utf8ByteSize else none

theorem cut?_append (before rest : String) :
    cut? before.utf8ByteSize (before ++ rest) = some (before, rest) := by
  have hvalid : (⟨before.utf8ByteSize⟩ : String.Pos.Raw).IsValid (before ++ rest) :=
    String.Pos.Raw.isValid_iff_exists_append.mpr ⟨before, rest, rfl, rfl⟩
  -- the two extracts are compared byte by byte, since strings are made of them
  have hbefore : (before ++ rest).toByteArray.extract 0 before.utf8ByteSize =
      before.toByteArray := by
    rw [String.toByteArray_append]
    exact ByteArray.extract_append_eq_left rfl
  have hrest : (before ++ rest).toByteArray.extract before.utf8ByteSize
      (before ++ rest).utf8ByteSize = rest.toByteArray := by
    rw [String.toByteArray_append]
    exact ByteArray.extract_append_eq_right rfl (by simp)
  unfold cut?
  rw [dif_pos hvalid]
  congr 2
  · exact String.toByteArray_inj.mp hbefore
  · exact String.toByteArray_inj.mp hrest

/-- A text is cut at the sizes of what it begins with, and nowhere else. -/
theorem cut?_eq_some_iff {n : Nat} {s before rest : String} :
    cut? n s = some (before, rest) ↔ s = before ++ rest ∧ before.utf8ByteSize = n := by
  constructor
  · intro h
    by_cases hvalid : (⟨n⟩ : String.Pos.Raw).IsValid s
    · obtain ⟨a, b, rfl, hn⟩ := String.Pos.Raw.isValid_iff_exists_append.mp hvalid
      obtain rfl : n = a.utf8ByteSize := congrArg String.Pos.Raw.byteIdx hn
      rw [cut?_append] at h
      cases h
      exact ⟨rfl, rfl⟩
    · unfold cut? at h
      rw [dif_neg hvalid] at h
      cases h
  · rintro ⟨rfl, rfl⟩
    exact cut?_append before rest

theorem slice?_eq_some_iff {start stop : Nat} {s text : String} :
    slice? start stop s = some text ↔ ∃ before rest, s = before ++ text ++ rest ∧
      before.utf8ByteSize = start ∧ start + text.utf8ByteSize = stop := by
  unfold slice?
  constructor
  · intro h
    obtain ⟨⟨upTo, rest⟩, hupTo, h⟩ := Option.bind_eq_some_iff.mp h
    obtain ⟨⟨before, text⟩, hbefore, rfl⟩ := Option.map_eq_some_iff.mp h
    obtain ⟨rfl, hstop⟩ := cut?_eq_some_iff.mp hupTo
    obtain ⟨rfl, hstart⟩ := cut?_eq_some_iff.mp hbefore
    rw [String.utf8ByteSize_append, hstart] at hstop
    exact ⟨before, rest, rfl, hstart, hstop⟩
  · rintro ⟨before, rest, rfl, rfl, rfl⟩
    rw [← String.utf8ByteSize_append, cut?_append]
    show (cut? before.utf8ByteSize (before ++ text)).map Prod.snd = some text
    rw [cut?_append]
    rfl

theorem not_mem_of_offset? {c : Char} {s : String} (h : offset? c s = none) : c ∉ s.toList := by
  intro hmem
  unfold offset? at h
  rw [if_pos hmem] at h
  cases h

/-- What stands in front of the first occurrence has as many bytes as its offset says. -/
theorem exists_append_of_offset? {c : Char} {s : String} {i : Nat} (h : offset? c s = some i) :
    ∃ before rest, s = before ++ String.singleton c ++ rest ∧ c ∉ before.toList ∧
      before.utf8ByteSize = i := by
  unfold offset? at h
  split at h
  · next hmem =>
    cases h
    obtain ⟨before, rest, hs, hnot⟩ := List.eq_append_cons_of_mem hmem
    -- the offset is the size of what stands before the first occurrence
    have hfirst : s.toList.takeWhile (· ≠ c) = before := by
      rw [hs, List.takeWhile_append_of_pos, List.takeWhile_cons_of_neg (by simp), List.append_nil]
      intro d hd
      exact decide_eq_true fun heq => hnot (heq ▸ hd)
    refine ⟨String.ofList before, String.ofList rest, ?_, ?_, ?_⟩
    · apply String.toList_injective
      simp [hs]
    · rwa [String.toList_ofList]
    · rw [hfirst]
  · cases h

/-! ## Digits of base sixteen -/

namespace Hex

/-- A digit of base sixteen, of either case, with its value. -/
def IsDigit (c : Char) (v : Nat) : Prop :=
  "0123456789abcdef".toList[v]? = some c ∨ "0123456789ABCDEF".toList[v]? = some c

instance (c : Char) (v : Nat) : Decidable (IsDigit c v) :=
  inferInstanceAs (Decidable (_ ∨ _))

theorem IsDigit.lt {c : Char} {v : Nat} (h : IsDigit c v) : v < 16 := by
  rcases h with h | h
  · exact (List.getElem?_eq_some_iff.mp h).1
  · exact (List.getElem?_eq_some_iff.mp h).1

theorem IsDigit.mem {c : Char} {v : Nat} (h : IsDigit c v) :
    c ∈ "0123456789abcdef".toList ++ "0123456789ABCDEF".toList := by
  refine List.mem_append.mpr ?_
  rcases h with h | h
  · exact .inl (List.mem_of_getElem? h)
  · exact .inr (List.mem_of_getElem? h)

theorem IsDigit.ne_plus {c : Char} {v : Nat} (h : IsDigit c v) : c ≠ '+' := by
  rintro rfl
  exact absurd h.mem (by decide)

theorem IsDigit.ne_percent {c : Char} {v : Nat} (h : IsDigit c v) : c ≠ '%' := by
  rintro rfl
  exact absurd h.mem (by decide)

/-- A digit is one byte. -/
theorem IsDigit.utf8Size_eq {c : Char} {v : Nat} (h : IsDigit c v) : c.utf8Size = 1 := by
  have hall : ("0123456789abcdef".toList ++ "0123456789ABCDEF".toList).all
      (fun d => d.utf8Size = 1) = true := by decide
  exact of_decide_eq_true (List.all_eq_true.mp hall c h.mem)

/-- The digits that are read are those of the tables. -/
theorem digit?_eq_some_iff {c : Char} {v : Nat} : digit? c = some v ↔ IsDigit c v := by
  constructor
  · intro h
    have hascii : c.toNat < 0x80 := by
      by_contra hbig
      have hbeyond : ∀ d : Char, d.toNat < 0x80 → ¬ c ≤ d := fun d hd hle =>
        hbig (Nat.lt_of_le_of_lt (show c.toNat ≤ d.toNat from hle) hd)
      unfold digit? at h
      rw [if_neg fun hin => hbeyond '9' (by decide) hin.2,
        if_neg fun hin => hbeyond 'f' (by decide) hin.2,
        if_neg fun hin => hbeyond 'F' (by decide) hin.2] at h
      cases h
    -- below 0x80 all characters are gone through
    have hcodes : ∀ n < 0x80, (digit? (Char.ofNat n)).all (fun v => IsDigit (Char.ofNat n) v) := by
      decide
    have hcode := hcodes c.toNat hascii
    rw [Char.ofNat_toNat, h] at hcode
    exact of_decide_eq_true hcode
  · intro h
    have hvalues : ∀ v < 16, "0123456789abcdef".toList[v]?.bind digit? = some v ∧
        "0123456789ABCDEF".toList[v]?.bind digit? = some v := by
      decide
    obtain ⟨hlower, hupper⟩ := hvalues v h.lt
    rcases h with h | h
    · rwa [h] at hlower
    · rwa [h] at hupper

end Hex

/-! ## Reading a byte -/

/-- A number with one more digit of base sixteen, if it is still a byte. -/
def addDigit? (n : Nat) (c : Char) : Option Nat :=
  (Hex.digit? c).bind fun d => if 16 * n + d < 256 then some (16 * n + d) else none

/-- The byte that digits of base sixteen write.  A plus sign may stand in front of them, and there
has to be one at least. -/
def readByte? (text : List Char) : Option Nat :=
  let digits := match text with
    | '+' :: digits => digits
    | _ => text
  if digits = [] then none else digits.foldlM addDigit? 0

/-- Two digits fit a byte. -/
theorem addDigit?_of_lt {n : Nat} (hn : n < 16) (c : Char) :
    addDigit? n c = (Hex.digit? c).map (16 * n + ·) := by
  unfold addDigit?
  cases hdigit : Hex.digit? c with
  | none => rfl
  | some d =>
    have hd := (Hex.digit?_eq_some_iff.mp hdigit).lt
    show (if 16 * n + d < 256 then some (16 * n + d) else none) = some (16 * n + d)
    rw [if_pos (by omega)]

end Coordination.Text
