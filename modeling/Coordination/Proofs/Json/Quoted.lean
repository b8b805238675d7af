import Coordination.Json.Reader
import Coordination.Json.Printer
import Mathlib.Data.List.TakeWhile
/-!
# Texts between quotes

The grammar of a quoted text, apart from any reader: which characters between two quotes spell
which text.  A text has many spellings, and the reader takes exactly these; the writer picks one of
them.  Main statements: `read?_eq_string_iff`, and `Quotes.ne`, by which no text is spelled by
a quoted text that is equal to it.
-/

namespace Coordination.Json

open Reader

/-! ## Grammar -/

/-- Four hexadecimal digits write a unit of sixteen bits. -/
inductive HexUnit : Char → Char → Char → Char → Nat → Prop where
  | mk {a b c d : Char} {i j k l : Nat} : Text.Hex.digit? a = some i → Text.Hex.digit? b = some j →
      Text.Hex.digit? c = some k → Text.Hex.digit? d = some l →
      HexUnit a b c d (((i * 16 + j) * 16 + k) * 16 + l)

/-- Whether a unit is one half of a surrogate pair. -/
def IsSurrogate (n : Nat) : Prop := 0xd800 ≤ n ∧ n < 0xe000

/-- What stands between the quotes, and the text that it spells. -/
inductive Spells : List Char → List Char → Prop where
  | nil : Spells [] []
  /-- A character stands for itself. -/
  | plain {c : Char} {body text : List Char} : 0x20 ≤ c.toNat → c ≠ '"' → c ≠ '\\' →
      Spells body text → Spells (c :: body) (c :: text)
  /-- An escape of one letter. -/
  | short {e c : Char} {body text : List Char} : shortEscape? e = some c →
      Spells body text → Spells ('\\' :: e :: body) (c :: text)
  /-- An escape of four digits. -/
  | unit {a b c d : Char} {n : Nat} {body text : List Char} : HexUnit a b c d n →
      ¬ IsSurrogate n → Spells body text →
      Spells ('\\' :: 'u' :: a :: b :: c :: d :: body) (Char.ofNat n :: text)
  /-- Two such escapes for the two halves of a surrogate pair. -/
  | pair {a b c d a' b' c' d' : Char} {n m : Nat} {body text : List Char} : HexUnit a b c d n →
      0xd800 ≤ n → n < 0xdc00 → HexUnit a' b' c' d' m → 0xdc00 ≤ m → m < 0xe000 →
      Spells body text →
      Spells ('\\' :: 'u' :: a :: b :: c :: d :: '\\' :: 'u' :: a' :: b' :: c' :: d' :: body)
        (Char.ofNat (0x10000 + (n - 0xd800) * 0x400 + (m - 0xdc00)) :: text)

/-- A whole text is a quoted text that spells another one, with blanks around it. -/
def Quotes (s text : String) : Prop :=
  ∃ before body after : List Char, s.toList = before ++ '"' :: body ++ '"' :: after ∧
    (∀ c ∈ before, isSpace c = true) ∧ (∀ c ∈ after, isSpace c = true) ∧
    Spells body text.toList

/-- Whether a text is a quoted text. -/
def IsQuoted (s : String) : Prop := ∃ text, Quotes s text

/-- A spelling is at least as long as the text. -/
theorem Spells.length_le {body text : List Char} (h : Spells body text) :
    text.length ≤ body.length := by
  induction h with
  | nil => exact Nat.le_refl _
  | plain _ _ _ _ ih | short _ _ ih | unit _ _ _ ih | pair _ _ _ _ _ _ _ ih =>
    simp only [List.length_cons]
    omega

theorem not_isQuoted {s : String} (h : '"' ∉ s.toList) : ¬ IsQuoted s := by
  rintro ⟨text, before, body, after, heq, -⟩
  rw [heq] at h
  exact h (List.mem_append_left _ (List.mem_append_right before List.mem_cons_self))

/-- No text is spelled by a quoted text that is equal to it: the quotes make it longer. -/
theorem Quotes.ne {s text : String} (h : Quotes s text) : text ≠ s := by
  intro heq
  subst heq
  obtain ⟨before, body, after, heq, -, -, hspells⟩ := h
  have hlength := congrArg List.length heq
  have hle := hspells.length_le
  simp only [List.length_append, List.length_cons] at hlength
  omega

/-! ## The writer spells -/

/-- The digit that is written for a value is read as this value. -/
theorem digit?_lowerDigit : ∀ n < 16, Text.Hex.digit? (Text.Hex.lowerDigit n) = some n := by
  decide

/-- A control character is written as an escape of four digits. -/
theorem hexUnit_control {n : Nat} (h : n < 0x20) :
    HexUnit '0' '0' (Text.Hex.lowerDigit (n / 16)) (Text.Hex.lowerDigit (n % 16)) n := by
  have hzero : Text.Hex.digit? '0' = some 0 := by decide
  have hunit := HexUnit.mk hzero hzero (digit?_lowerDigit (n / 16) (by omega))
    (digit?_lowerDigit (n % 16) (by omega))
  rwa [show ((0 * 16 + 0) * 16 + n / 16) * 16 + n % 16 = n by omega] at hunit

/-- A character in front of a spelling, as it is written. -/
theorem spells_escapeChar (c : Char) {body text : List Char} (h : Spells body text) :
    Spells (escapeChar c ++ body) (c :: text) := by
  unfold escapeChar
  -- the seven characters with an escape of one letter
  iterate 7
    split
    · next hc => exact .short (by rw [hc]; rfl) h
  split
  · next hlow =>
    have hunit := Spells.unit (hexUnit_control hlow) (by unfold IsSurrogate; omega) h
    rwa [Char.ofNat_toNat] at hunit
  · next hquote hback _ _ _ _ _ hlow => exact .plain (by omega) hquote hback h

/-- **The writer spells every text.** -/
theorem spells_escape (text : List Char) : Spells (text.flatMap escapeChar) text := by
  induction text with
  | nil => exact .nil
  | cons c text ih => exact spells_escapeChar c ih

/-! ## The reader takes every spelling -/

theorem pieces?_unit {a b c d : Char} {n : Nat} {rest : List Char} (h : HexUnit a b c d n) :
    pieces? ('\\' :: 'u' :: a :: b :: c :: d :: rest) =
      (pieces? rest).map fun found => (.unit n :: found.1, found.2) := by
  obtain ⟨ha, hb, hc, hd⟩ := h
  rw [pieces?, ha, hb, hc, hd]
  cases pieces? rest <;> rfl

theorem pieces?_short {e c : Char} {rest : List Char} (h : shortEscape? e = some c) :
    pieces? ('\\' :: e :: rest) =
      (pieces? rest).map fun found => (.char c :: found.1, found.2) := by
  have hu : e ≠ 'u' := by
    intro heq
    subst heq
    cases h
  rw [pieces?, h]
  · cases pieces? rest <;> rfl
  · intro _ _ _ _ _ he
    exact absurd he hu

theorem pieces?_plain {c : Char} {rest : List Char} (hlow : 0x20 ≤ c.toNat) (hquote : c ≠ '"')
    (hback : c ≠ '\\') :
    pieces? (c :: rest) = (pieces? rest).map fun found => (.char c :: found.1, found.2) := by
  have hcontrol : ¬ (c.toNat < 0x20 ∨ c = '\\') := by
    intro hcases
    rcases hcases with h | h
    · omega
    · exact hback h
  rw [pieces?]
  · rw [if_neg hcontrol]
  · exact hquote
  · intro _ _ _ _ _ h
    exact absurd h hback
  · intro _ _ h
    exact absurd h hback

/-- A unit that is no half of a pair is a character of its own. -/
theorem denote?_unit {n : Nat} (h : ¬ IsSurrogate n) (ps : List Piece) :
    denote? (.unit n :: ps) = (denote? ps).map (Char.ofNat n :: ·) := by
  unfold IsSurrogate at h
  cases ps with
  | nil => simp only [denote?, if_neg h]
  | cons p ps =>
    cases p with
    | char c => simp only [denote?, if_neg h]
    | unit m => rw [denote?, if_neg (by omega), if_neg (by omega)]

theorem denote?_pair {n m : Nat} (hn : 0xd800 ≤ n) (hn' : n < 0xdc00) (hm : 0xdc00 ≤ m)
    (hm' : m < 0xe000) (ps : List Piece) :
    denote? (.unit n :: .unit m :: ps) =
      (denote? ps).map (Char.ofNat (0x10000 + (n - 0xd800) * 0x400 + (m - 0xdc00)) :: ·) := by
  rw [denote?, if_pos ⟨hn, hn'⟩, if_pos ⟨hm, hm'⟩]

/-- The reader takes a spelling up to the closing quote and denotes the text. -/
theorem pieces?_of_spells {body text : List Char} (h : Spells body text) (rest : List Char) :
    ∃ ps, pieces? (body ++ '"' :: rest) = some (ps, rest) ∧ denote? ps = some text := by
  -- the reader takes the pieces in the way in which the text is spelled
  induction h with
  | nil => exact ⟨[], by simp [pieces?], rfl⟩
  | @plain c _ _ hlow hquote hback _ ih =>
    obtain ⟨ps, hps, htext⟩ := ih
    refine ⟨.char c :: ps, ?_, ?_⟩
    · rw [List.cons_append, pieces?_plain hlow hquote hback, hps]
      rfl
    · rw [denote?, htext]
      rfl
  | @short _ c _ _ he _ ih =>
    obtain ⟨ps, hps, htext⟩ := ih
    refine ⟨.char c :: ps, ?_, ?_⟩
    · rw [List.cons_append, List.cons_append, pieces?_short he, hps]
      rfl
    · rw [denote?, htext]
      rfl
  | @unit _ _ _ _ n _ _ hunit hn _ ih =>
    obtain ⟨ps, hps, htext⟩ := ih
    refine ⟨.unit n :: ps, ?_, ?_⟩
    · simp only [List.cons_append]
      rw [pieces?_unit hunit, hps]
      rfl
    · rw [denote?_unit hn, htext]
      rfl
  | @pair _ _ _ _ _ _ _ _ n m _ _ hunit hn hn' hunit' hm hm' _ ih =>
    obtain ⟨ps, hps, htext⟩ := ih
    refine ⟨.unit n :: .unit m :: ps, ?_, ?_⟩
    · simp only [List.cons_append]
      rw [pieces?_unit hunit, pieces?_unit hunit', hps]
      rfl
    · rw [denote?_pair hn hn' hm hm', htext]
      rfl

/-! ## The reader takes nothing else -/

/-- One piece at the front, and what follows it. -/
inductive Leads : List Char → Piece → List Char → Prop where
  | plain {c : Char} {cs : List Char} : 0x20 ≤ c.toNat → c ≠ '"' → c ≠ '\\' →
      Leads (c :: cs) (.char c) cs
  | short {e c : Char} {cs : List Char} : shortEscape? e = some c →
      Leads ('\\' :: e :: cs) (.char c) cs
  | unit {a b c d : Char} {n : Nat} {cs : List Char} : HexUnit a b c d n →
      Leads ('\\' :: 'u' :: a :: b :: c :: d :: cs) (.unit n) cs

/-- What the reader took begins with the closing quote, or with a piece. -/
theorem pieces?_inv {cs rest : List Char} {ps : List Piece} (h : pieces? cs = some (ps, rest)) :
    (ps = [] ∧ cs = '"' :: rest) ∨
      ∃ p ps' cs', ps = p :: ps' ∧ Leads cs p cs' ∧ pieces? cs' = some (ps', rest) := by
  -- the reader ends at a quote; otherwise one piece leads on, by its three forms
  unfold pieces? at h
  split at h
  · cases h
    exact .inl ⟨rfl, rfl⟩
  · next a b c d cs' =>
    simp only [Option.bind_eq_bind, Option.bind_eq_some_iff] at h
    obtain ⟨i, hi, j, hj, k, hk, l, hl, ⟨ps', rest'⟩, hps, heq⟩ := h
    cases heq
    exact .inr ⟨_, ps', cs', rfl, .unit ⟨hi, hj, hk, hl⟩, hps⟩
  · next e cs' _ =>
    simp only [Option.bind_eq_bind, Option.bind_eq_some_iff] at h
    obtain ⟨c, hc, ⟨ps', rest'⟩, hps, heq⟩ := h
    cases heq
    exact .inr ⟨_, ps', cs', rfl, .short hc, hps⟩
  · next c cs' hquote _ _ =>
    split at h
    · cases h
    · next hcontrol =>
      obtain ⟨⟨ps', rest'⟩, hps, heq⟩ := Option.map_eq_some_iff.1 h
      cases heq
      have hlow : 0x20 ≤ c.toNat := by omega
      have hback : c ≠ '\\' := fun hc => hcontrol (.inr hc)
      exact .inr ⟨_, ps', cs', rfl, .plain hlow hquote hback, hps⟩
  · cases h

theorem pieces?_cons_inv {cs rest : List Char} {p : Piece} {ps : List Piece}
    (h : pieces? cs = some (p :: ps, rest)) :
    ∃ cs', Leads cs p cs' ∧ pieces? cs' = some (ps, rest) := by
  rcases pieces?_inv h with ⟨hnil, -⟩ | ⟨p', ps', cs', heq, hleads, hps⟩
  · cases hnil
  · cases heq
    exact ⟨cs', hleads, hps⟩

/-- A unit that is no half of a pair spells a character. -/
theorem spells_unit {cs cs' rest body text : List Char} {n : Nat} (h : Leads cs (.unit n) cs')
    (hn : ¬ IsSurrogate n) (hbody : cs' = body ++ '"' :: rest) (hspells : Spells body text) :
    ∃ body, cs = body ++ '"' :: rest ∧ Spells body (Char.ofNat n :: text) := by
  cases h with
  | unit hunit => exact ⟨_, by rw [hbody]; rfl, .unit hunit hn hspells⟩

/-- Pieces that denote a text were read from a spelling of it. -/
theorem spells_of_pieces? {cs rest : List Char} {ps : List Piece} {text : List Char}
    (h : pieces? cs = some (ps, rest)) (htext : denote? ps = some text) :
    ∃ body, cs = body ++ '"' :: rest ∧ Spells body text := by
  -- the cases are those of `denote?`: a pair takes two pieces at once
  fun_induction denote? ps generalizing cs text with
  | case1 =>
    rcases pieces?_inv h with ⟨-, hcs⟩ | ⟨_, _, _, heq, -⟩
    · cases htext
      exact ⟨[], hcs, .nil⟩
    · cases heq
  | case2 c ps ih =>
    obtain ⟨text', htext', rfl⟩ := Option.map_eq_some_iff.1 htext
    obtain ⟨cs', hleads, hps⟩ := pieces?_cons_inv h
    obtain ⟨body, rfl, hspells⟩ := ih hps htext'
    cases hleads with
    | plain hlow hquote hback => exact ⟨_, rfl, .plain hlow hquote hback hspells⟩
    | short he => exact ⟨_, rfl, .short he hspells⟩
  | case3 n m ps hn hm ih =>
    obtain ⟨text', htext', rfl⟩ := Option.map_eq_some_iff.1 htext
    obtain ⟨cs', hleads, hps⟩ := pieces?_cons_inv h
    obtain ⟨cs'', hleads', hps'⟩ := pieces?_cons_inv hps
    obtain ⟨body, rfl, hspells⟩ := ih hps' htext'
    cases hleads with
    | unit hunit =>
      cases hleads' with
      | unit hunit' => exact ⟨_, rfl, .pair hunit hn.1 hn.2 hunit' hm.1 hm.2 hspells⟩
  | case4 | case5 | case7 => cases htext
  | case6 n m ps hhigh hlow ih =>
    obtain ⟨text', htext', rfl⟩ := Option.map_eq_some_iff.1 htext
    obtain ⟨cs', hleads, hps⟩ := pieces?_cons_inv h
    obtain ⟨body, hbody, hspells⟩ := ih hps htext'
    have hn : ¬ IsSurrogate n := by
      unfold IsSurrogate
      omega
    exact spells_unit hleads hn hbody hspells
  | case8 n ps _ hn ih =>
    obtain ⟨text', htext', rfl⟩ := Option.map_eq_some_iff.1 htext
    obtain ⟨cs', hleads, hps⟩ := pieces?_cons_inv h
    obtain ⟨body, hbody, hspells⟩ := ih hps htext'
    exact spells_unit hleads hn hbody hspells

/-! ## Whole texts -/

/-- Dropping blanks drops all those in front of something else. -/
theorem skipSpace_append {before cs : List Char} (h : ∀ c ∈ before, isSpace c = true) :
    skipSpace (before ++ cs) = skipSpace cs := by
  unfold skipSpace
  rw [List.dropWhile_append_of_pos h]

/-- Nothing is left of blanks, and of nothing else. -/
theorem skipSpace_eq_nil_iff {cs : List Char} : skipSpace cs = [] ↔ ∀ c ∈ cs, isSpace c = true :=
  List.dropWhile_eq_nil_iff

/-- What is dropped is blank. -/
theorem exists_append_skipSpace (cs : List Char) :
    ∃ before, cs = before ++ skipSpace cs ∧ ∀ c ∈ before, isSpace c = true :=
  ⟨cs.takeWhile isSpace, List.takeWhile_append_dropWhile.symm,
    fun c hc => List.all_eq_true.1 List.all_takeWhile c hc⟩

/-- A quoted text at the front is read as the text that it spells. -/
theorem quoted?_of_spells {body text : List Char} (h : Spells body text) (rest : List Char) :
    quoted? (body ++ '"' :: rest) = some (some (String.ofList text), rest) := by
  obtain ⟨ps, hps, htext⟩ := pieces?_of_spells h rest
  simp [quoted?, hps, htext]

/-- A document that is a text was read from an opening quote on. -/
theorem value?_eq_string {fuel : Nat} {cs rest : List Char} {s : Option String}
    (h : value? fuel cs = some (.string s, rest)) :
    ∃ cs', cs = '"' :: cs' ∧ quoted? cs' = some (s, rest) := by
  cases fuel with
  | zero => simp [value?] at h
  | succ fuel =>
    -- no other first character gives a text
    unfold value? at h
    split at h
    · next cs' =>
      obtain ⟨⟨s', rest'⟩, hquoted, heq⟩ := Option.map_eq_some_iff.1 h
      cases heq
      exact ⟨cs', rfl, hquoted⟩
    · split at h
      · cases h
      · obtain ⟨_, _, heq⟩ := Option.map_eq_some_iff.1 h
        cases heq
    · split at h
      · cases h
      · obtain ⟨_, _, heq⟩ := Option.map_eq_some_iff.1 h
        cases heq
    · cases h
    · cases h
    · cases h
    · obtain ⟨_, _, heq⟩ := Option.map_eq_some_iff.1 h
      cases heq

/-- **The reader takes exactly the quoted texts.** -/
theorem read?_eq_string_iff {s text : String} :
    Document.read? s = some (.string (some text)) ↔ Quotes s text := by
  constructor
  · intro h
    unfold Document.read? at h
    simp only at h
    split at h
    · next doc rest hvalue =>
      split at h
      · next hrest =>
        cases h
        obtain ⟨cs', hcs', hquoted⟩ := value?_eq_string hvalue
        obtain ⟨⟨ps, rest'⟩, hps, heq⟩ := Option.map_eq_some_iff.1 hquoted
        obtain ⟨chars, hchars, rfl⟩ :
            ∃ chars, denote? ps = some chars ∧ String.ofList chars = text := by
          simpa using congrArg Prod.fst heq
        obtain rfl : rest' = rest := congrArg Prod.snd heq
        obtain ⟨body, rfl, hspells⟩ := spells_of_pieces? hps hchars
        obtain ⟨before, hbefore, hblank⟩ := exists_append_skipSpace s.toList
        refine ⟨before, body, rest', ?_, hblank, ?_, by rwa [String.toList_ofList]⟩
        · rw [hbefore, hcs']
          simp
        · exact skipSpace_eq_nil_iff.1 hrest
      · cases h
    · cases h
  -- blanks, a quoted text and blanks again: the reader takes them in this order
  · intro hparts
    obtain ⟨before, body, after, hs, hbefore, hafter, hspells⟩ := hparts
    have hskip : skipSpace s.toList = '"' :: (body ++ '"' :: after) := by
      rw [hs, List.append_assoc, skipSpace_append hbefore]
      rfl
    have hquoted := quoted?_of_spells hspells after
    rw [String.ofList_toList] at hquoted
    have hvalue : value? (s.toList.length + 1) (skipSpace s.toList) =
        some (.string (some text), after) := by
      rw [hskip]
      simp [value?, hquoted]
    unfold Document.read?
    simp only [hvalue, skipSpace_eq_nil_iff.2 hafter, if_true]

/-- Whether a text is a quoted text is told by the reader. -/
instance (s : String) : Decidable (IsQuoted s) :=
  decidable_of_iff (((Document.read? s).bind Document.text?).isSome = true) <| by
    simp only [IsQuoted, ← read?_eq_string_iff, Option.isSome_iff_exists, Option.bind_eq_some_iff]
    constructor
    · rintro ⟨text, doc, hread, htext⟩
      cases doc with
      | string found => exact ⟨text, hread.trans (congrArg (some ∘ Document.string) htext)⟩
      | _ => cases htext
    · rintro ⟨text, hread⟩
      exact ⟨text, _, hread, rfl⟩

end Coordination.Json
