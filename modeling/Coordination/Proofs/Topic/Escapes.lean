import Coordination.Proofs.Text.Offsets
import Coordination.Proofs.Topic.Subjects
/-!
# What foreign tokens say

A token need not come from a segment.  What it says is read from left to right: an escape says the
character of its code, and every other character says itself.  The program looks for one percent
sign after another, takes the two bytes behind it and leaves them to a reader of numbers.  This ends
without cutting a character and gives what the token says, except that the reader of numbers accepts
a plus sign and one digit, too.  Main statement: `toSegment_exact`.
-/

namespace Coordination.Topic.Subject

/-! ## Codes -/

/-- Two digits of base sixteen write their number. -/
def TwoDigits (high low : Char) (n : Nat) : Prop :=
  ∃ h l, Text.Hex.IsDigit high h ∧ Text.Hex.IsDigit low l ∧ n = 16 * h + l

/-- A plus sign and a digit write the value of the digit. -/
def SignedDigit (high low : Char) (n : Nat) : Prop :=
  high = '+' ∧ Text.Hex.IsDigit low n

/-- What is accepted as a code. -/
def Accepted (high low : Char) (n : Nat) : Prop :=
  TwoDigits high low n ∨ SignedDigit high low n

theorem escapeCode?_eq_some_iff {high low : Char} {n : Nat} :
    escapeCode? high low = some n ↔ Accepted high low n := by
  have hplus : ∀ v, ¬ Text.Hex.IsDigit '+' v := fun v h => h.ne_plus rfl
  unfold escapeCode? Accepted TwoDigits SignedDigit
  simp only [← Text.Hex.digit?_eq_some_iff] at hplus ⊢
  cases hlow : Text.Hex.digit? low with
  | none => simp
  | some l =>
    cases hhigh : Text.Hex.digit? high with
    | none => simp [eq_comm]
    | some h =>
      have hne : high ≠ '+' := by
        rintro rfl
        exact hplus h hhigh
      simp [hne, eq_comm]

/-- Two characters write one code. -/
theorem Accepted.unique {high low : Char} {n m : Nat} (hn : Accepted high low n)
    (hm : Accepted high low m) : n = m := by
  rw [← escapeCode?_eq_some_iff] at hn hm
  exact Option.some.inj (hn.symm.trans hm)

/-- A code is written in two bytes. -/
theorem Accepted.utf8ByteSize_eq {high low : Char} {n : Nat} (h : Accepted high low n) :
    (String.ofList [high, low]).utf8ByteSize = 2 := by
  have hsizes : high.utf8Size = 1 ∧ low.utf8Size = 1 := by
    rcases h with ⟨_, _, hhigh, hlow, -⟩ | ⟨rfl, hlow⟩
    · exact ⟨hhigh.utf8Size_eq, hlow.utf8Size_eq⟩
    · exact ⟨by decide, hlow.utf8Size_eq⟩
  rw [String.ofList_cons, String.ofList_cons, String.utf8ByteSize_append,
    String.utf8ByteSize_append, String.utf8ByteSize_singleton, String.utf8ByteSize_singleton,
    hsizes.1, hsizes.2]
  rfl

/-! ## The text of a token -/

/-- What a token says when it is read from left to right: a percent sign and two characters that
write a code say the character of this code, and every other character says itself. -/
inductive Says (Writes : Char → Char → Nat → Prop) : List Char → List Char → Prop where
  /-- Nothing is left. -/
  | nil : Says Writes [] []
  /-- An escape. -/
  | escape {high low : Char} {n : Nat} {rest text : List Char} (hcode : Writes high low n)
      (hrest : Says Writes rest text) :
      Says Writes ('%' :: high :: low :: rest) (Char.ofNat n :: text)
  /-- A character that begins no escape. -/
  | copy {c : Char} {rest text : List Char}
      (hplain : ∀ high low tail n, c :: rest = '%' :: high :: low :: tail → ¬ Writes high low n)
      (hrest : Says Writes rest text) :
      Says Writes (c :: rest) (c :: text)

theorem Says.copy_of_ne {Writes : Char → Char → Nat → Prop} {c : Char} {rest text : List Char}
    (hc : c ≠ '%') (hrest : Says Writes rest text) : Says Writes (c :: rest) (c :: text) :=
  .copy (fun _ _ _ _ hcs => absurd (List.cons.inj hcs).1 hc) hrest

/-- A token says one text, if two characters write one code. -/
theorem Says.unique {Writes : Char → Char → Nat → Prop} {cs text text' : List Char}
    (h : Says Writes cs text) (h' : Says Writes cs text')
    (hone : ∀ high low n m, Writes high low n → Writes high low m → n = m) : text = text' := by
  induction h generalizing text' with
  | nil =>
    cases h'
    rfl
  | escape hcode _ ih =>
    cases h' with
    | escape hcode' hrest' => rw [hone _ _ _ _ hcode hcode', ih hrest']
    | copy hplain' _ => exact absurd hcode (hplain' _ _ _ _ rfl)
  | copy hplain _ ih =>
    cases h' with
    | escape hcode' _ => exact absurd hcode' (hplain _ _ _ _ rfl)
    | copy _ hrest' => rw [ih hrest']

/-- A token begins with an escape, or with a character that begins none. -/
theorem escape_or_plain (cs : List Char) :
    (∃ high low rest n, cs = '%' :: high :: low :: rest ∧ escapeCode? high low = some n) ∨
      ∀ high low rest, cs = '%' :: high :: low :: rest → escapeCode? high low = none := by
  by_cases hescape : ∃ high low rest n, cs = '%' :: high :: low :: rest ∧
      escapeCode? high low = some n
  · exact .inl hescape
  · refine .inr fun high low rest hcs => Option.eq_none_iff_forall_ne_some.mpr fun n hn => ?_
    exact hescape ⟨high, low, rest, n, hcs, hn⟩

theorem unescapeChars_plain {c : Char} {cs : List Char}
    (h : ∀ high low rest, c :: cs = '%' :: high :: low :: rest → escapeCode? high low = none) :
    unescapeChars (c :: cs) = c :: unescapeChars cs := by
  by_cases hc : c = '%'
  · subst hc
    match cs with
    | [] => rfl
    | [d] => rfl
    | high :: low :: rest => rw [unescapeChars, if_pos rfl, h high low rest rfl]
  · exact unescapeChars_cons_of_ne hc cs

/-- Unescaping gives what a token says with all codes that are accepted. -/
theorem says_unescapeChars (cs : List Char) : Says Accepted cs (unescapeChars cs) := by
  rcases escape_or_plain cs with ⟨high, low, rest, n, rfl, hcode⟩ | hplain
  · rw [unescapeChars_escape hcode]
    exact .escape (escapeCode?_eq_some_iff.mp hcode) (says_unescapeChars rest)
  · cases cs with
    | nil => exact .nil
    | cons c cs =>
      rw [unescapeChars_plain hplain]
      refine .copy ?_ (says_unescapeChars cs)
      intro high low tail n hcs haccepted
      have hnone := hplain high low tail hcs
      rw [escapeCode?_eq_some_iff.mpr haccepted] at hnone
      cases hnone
termination_by cs.length

/-! ## Signs among the digits -/

/-- A plus sign stands between a percent sign and a digit. -/
def HoldsSigned (cs : List Char) : Prop :=
  ∃ digit v, Text.Hex.IsDigit digit v ∧ ['%', '+', digit] <:+: cs

theorem holdsSigned_cons_iff {c : Char} {cs : List Char} :
    HoldsSigned (c :: cs) ↔
      (∃ digit v rest, Text.Hex.IsDigit digit v ∧ c = '%' ∧ cs = '+' :: digit :: rest) ∨
        HoldsSigned cs := by
  unfold HoldsSigned
  constructor
  · rintro ⟨digit, v, hdigit, hinfix⟩
    rcases List.infix_cons_iff.mp hinfix with ⟨rest, hcs⟩ | hinfix
    · cases hcs
      exact .inl ⟨digit, v, rest, hdigit, rfl, rfl⟩
    · exact .inr ⟨digit, v, hdigit, hinfix⟩
  · rintro (⟨digit, v, rest, hdigit, rfl, rfl⟩ | ⟨digit, v, hdigit, hinfix⟩)
    · exact ⟨digit, v, hdigit, (List.prefix_append ['%', '+', digit] rest).isInfix⟩
    · exact ⟨digit, v, hdigit, List.infix_cons hinfix⟩

/-- Where no such sign stands, the codes that are accepted are those of two digits. -/
theorem Says.twoDigits {cs text : List Char} (h : Says Accepted cs text)
    (hno : ¬ HoldsSigned cs) : Says TwoDigits cs text := by
  have hrest : ∀ {c : Char} {rest : List Char}, ¬ HoldsSigned (c :: rest) → ¬ HoldsSigned rest :=
    fun hno hsigned => hno (holdsSigned_cons_iff.mpr (.inr hsigned))
  induction h with
  | nil => exact .nil
  | @escape high low n rest text hcode _ ih =>
    rcases hcode with hdigits | ⟨rfl, hdigit⟩
    · exact .escape hdigits (ih (hrest (hrest (hrest hno))))
    · exact absurd (holdsSigned_cons_iff.mpr (.inl ⟨low, n, rest, hdigit, rfl, rfl⟩)) hno
  | copy hplain _ ih =>
    exact .copy (fun high low tail n hcs hdigits => hplain high low tail n hcs (.inl hdigits))
      (ih (hrest hno))

/-- Where such a sign stands, the two readings differ. -/
theorem Says.not_holdsSigned {cs text : List Char} (h : Says Accepted cs text)
    (hdigits : Says TwoDigits cs text) : ¬ HoldsSigned cs := by
  generalize hsame : text = text' at hdigits
  induction h generalizing text' with
  | nil =>
    rintro ⟨digit, v, -, hinfix⟩
    cases List.infix_nil.mp hinfix
  | @escape high low n rest text hcode _ ih =>
    cases hdigits with
    | escape hcode' hrest' =>
      -- neither of the digits is a sign
      obtain ⟨_, _, hhigh, hlow, -⟩ := hcode'
      have hno := ih _ (List.cons.inj hsame).2 hrest'
      simp only [holdsSigned_cons_iff, not_or]
      refine ⟨?_, ?_, ?_, hno⟩
      · rintro ⟨_, _, _, _, _, hcs⟩
        exact hhigh.ne_plus (List.cons.inj hcs).1
      · rintro ⟨_, _, _, _, hcs, _⟩
        exact hhigh.ne_percent hcs
      · rintro ⟨_, _, _, _, hcs, _⟩
        exact hlow.ne_percent hcs
    | copy hplain' _ =>
      rcases hcode with hdigits | ⟨-, hdigit⟩
      · exact absurd hdigits (hplain' _ _ _ _ rfl)
      · -- a single digit does not write the code of the percent sign
        have hcodes : ∀ n < 16, Char.ofNat n ≠ '%' := by decide
        exact absurd (List.cons.inj hsame).1 (hcodes n hdigit.lt)
  | copy hplain _ ih =>
    cases hdigits with
    | escape hcode' _ => exact absurd (.inl hcode') (hplain _ _ _ _ rfl)
    | copy _ hrest' =>
      rw [holdsSigned_cons_iff, not_or]
      refine ⟨?_, ih _ (List.cons.inj hsame).2 hrest'⟩
      rintro ⟨digit, v, tail, hdigit, rfl, rfl⟩
      exact hplain _ _ _ _ rfl (.inr ⟨rfl, hdigit⟩)

/-! ## The scan by byte offsets -/

/-- A token scanned for percent signs, behind what it said so far.  There is no result if a cut
falls inside a character. -/
def scan? (out rest : String) : Option String :=
  match Text.offset? '%' rest with
  | none => some (out ++ rest)
  | some i =>
    match Text.cut? i rest with
    | none => none
    | some (before, _) =>
      match (Text.slice? (i + 1) (i + 3) rest).bind fun digits => Text.readByte? digits.toList with
      | some byte =>
        match _h : Text.cut? (i + 3) rest with
        | none => none
        | some (_, tail) => scan? (out ++ before ++ String.singleton (Char.ofNat byte)) tail
      | none =>
        match _h : Text.cut? (i + 1) rest with
        | none => none
        | some (_, tail) => scan? (out ++ before ++ "%") tail
termination_by rest.utf8ByteSize
decreasing_by
  all_goals
    obtain ⟨hrest, hsize⟩ := Text.cut?_eq_some_iff.mp _h
    rw [hrest, String.utf8ByteSize_append]
    omega

/-- The reader of numbers accepts the codes of escapes. -/
theorem readByte?_pair (high low : Char) : Text.readByte? [high, low] = escapeCode? high low := by
  by_cases hplus : high = '+'
  · subst hplus
    have hread : Text.readByte? ['+', low] = Text.addDigit? 0 low := by simp [Text.readByte?]
    have hsign : Text.Hex.digit? '+' = none := by decide
    rw [hread, Text.addDigit?_of_lt (by decide), escapeCode?, hsign]
    cases Text.Hex.digit? low with
    | none => rfl
    | some l => simp
  · have hread : Text.readByte? [high, low] =
        (Text.addDigit? 0 high).bind fun h => Text.addDigit? h low := by
      simp [Text.readByte?, hplus, List.foldlM_cons]
    rw [hread, Text.addDigit?_of_lt (by decide), escapeCode?]
    cases hhigh : Text.Hex.digit? high with
    | none => cases Text.Hex.digit? low <;> simp [hplus]
    | some h =>
      have hh := (Text.Hex.digit?_eq_some_iff.mp hhigh).lt
      show Text.addDigit? (16 * 0 + h) low = _
      rw [Nat.mul_zero, Nat.zero_add, Text.addDigit?_of_lt hh]
      cases Text.Hex.digit? low <;> rfl

/-- Two bytes write a code only if they are two characters. -/
theorem exists_pair_of_readByte? {text : String} {n : Nat} (hsize : text.utf8ByteSize = 2)
    (h : Text.readByte? text.toList = some n) :
    ∃ high low, text = String.ofList [high, low] ∧ escapeCode? high low = some n := by
  obtain ⟨cs, rfl⟩ := text.exists_eq_ofList
  rw [String.toList_ofList] at h
  -- two bytes are two small characters, or one that is no digit
  match cs with
  | [] => cases h
  | [c] =>
    by_cases hplus : c = '+'
    · subst hplus
      cases h
    · -- a character of two bytes is no digit
      have hread : Text.readByte? [c] = Text.addDigit? 0 c := by simp [Text.readByte?, hplus]
      rw [hread, Text.addDigit?_of_lt (by decide)] at h
      obtain ⟨v, hv, -⟩ := Option.map_eq_some_iff.mp h
      have hone := (Text.Hex.digit?_eq_some_iff.mp hv).utf8Size_eq
      rw [← String.singleton_eq_ofList, String.utf8ByteSize_singleton] at hsize
      omega
  | [high, low] => exact ⟨high, low, rfl, readByte?_pair high low ▸ h⟩
  | a :: b :: c :: rest =>
    have ha := a.utf8Size_pos
    have hb := b.utf8Size_pos
    have hc := c.utf8Size_pos
    simp only [String.ofList_cons, String.utf8ByteSize_append, String.utf8ByteSize_singleton]
      at hsize
    omega

/-- A token at its first percent sign. -/
theorem cut?_of_offset? {rest : String} {i : Nat} (h : Text.offset? '%' rest = some i) :
    ∃ before tail, rest = before ++ (String.singleton '%' ++ tail) ∧ '%' ∉ before.toList ∧
      Text.cut? i rest = some (before, String.singleton '%' ++ tail) ∧
      Text.cut? (i + 1) rest = some (before ++ String.singleton '%', tail) := by
  obtain ⟨before, tail, hrest, hnot, hsize⟩ := Text.exists_append_of_offset? h
  have hassoc : rest = before ++ (String.singleton '%' ++ tail) := by
    rw [hrest, String.append_assoc]
  refine ⟨before, tail, hassoc, hnot, Text.cut?_eq_some_iff.mpr ⟨hassoc, hsize⟩,
    Text.cut?_eq_some_iff.mpr ⟨hrest, ?_⟩⟩
  rw [String.utf8ByteSize_append, hsize]
  rfl

/-- The two bytes behind a percent sign write a code exactly if two characters of an escape stand
there. -/
theorem code_behind_iff {rest front tail : String} {i n : Nat}
    (hfront : Text.cut? (i + 1) rest = some (front, tail)) :
    (Text.slice? (i + 1) (i + 3) rest).bind (fun digits => Text.readByte? digits.toList) =
        some n ↔
      ∃ high low behind, tail = String.ofList [high, low] ++ behind ∧
        escapeCode? high low = some n := by
  obtain ⟨rfl, hsize⟩ := Text.cut?_eq_some_iff.mp hfront
  constructor
  · intro h
    obtain ⟨digits, hdigits, hread⟩ := Option.bind_eq_some_iff.mp h
    obtain ⟨front', behind, hsplit, hstart, hstop⟩ := Text.slice?_eq_some_iff.mp hdigits
    -- cut at one offset a text has the same parts
    have hcut : Text.cut? (i + 1) (front ++ tail) = some (front', digits ++ behind) :=
      Text.cut?_eq_some_iff.mpr ⟨by rw [hsplit, String.append_assoc], hstart⟩
    obtain rfl : tail = digits ++ behind :=
      congrArg Prod.snd (Option.some.inj (hfront.symm.trans hcut))
    obtain ⟨high, low, rfl, hcode⟩ := exists_pair_of_readByte? (by omega) hread
    exact ⟨high, low, behind, rfl, hcode⟩
  · rintro ⟨high, low, behind, rfl, hcode⟩
    have hdigits := (escapeCode?_eq_some_iff.mp hcode).utf8ByteSize_eq
    have hslice : Text.slice? (i + 1) (i + 3) (front ++ (String.ofList [high, low] ++ behind)) =
        some (String.ofList [high, low]) :=
      Text.slice?_eq_some_iff.mpr ⟨front, behind, String.append_assoc.symm, hsize, by omega⟩
    rw [hslice, Option.bind_some, String.toList_ofList, readByte?_pair, hcode]

theorem cut?_behind_code {rest front behind : String} {high low : Char} {i n : Nat}
    (hfront : Text.cut? (i + 1) rest = some (front, String.ofList [high, low] ++ behind))
    (hcode : escapeCode? high low = some n) :
    Text.cut? (i + 3) rest = some (front ++ String.ofList [high, low], behind) := by
  obtain ⟨rfl, hsize⟩ := Text.cut?_eq_some_iff.mp hfront
  refine Text.cut?_eq_some_iff.mpr ⟨String.append_assoc.symm, ?_⟩
  rw [String.utf8ByteSize_append, hsize, (escapeCode?_eq_some_iff.mp hcode).utf8ByteSize_eq]

/-! ## The scan and the text -/

theorem unescapeChars_append {before : List Char} (h : '%' ∉ before) (cs : List Char) :
    unescapeChars (before ++ cs) = before ++ unescapeChars cs := by
  induction before with
  | nil => rfl
  | cons c before ih =>
    rw [List.mem_cons, not_or] at h
    rw [List.cons_append, unescapeChars_cons_of_ne (Ne.symm h.1), ih h.2, List.cons_append]

theorem toSegment_append {before : String} (h : '%' ∉ before.toList) (rest : String) :
    toSegment (before ++ rest) = before ++ toSegment rest := by
  unfold toSegment
  rw [String.toList_append, unescapeChars_append h, String.ofList_append, String.ofList_toList]

theorem toSegment_escape {high low : Char} {n : Nat} (h : escapeCode? high low = some n)
    (tail : String) :
    toSegment (String.singleton '%' ++ (String.ofList [high, low] ++ tail)) =
      String.singleton (Char.ofNat n) ++ toSegment tail := by
  have hchars : (String.singleton '%' ++ (String.ofList [high, low] ++ tail)).toList =
      '%' :: high :: low :: tail.toList := by
    simp
  unfold toSegment
  rw [hchars, unescapeChars_escape h, String.ofList_cons]

theorem toSegment_stray {tail : String}
    (h : ∀ high low behind, tail = String.ofList [high, low] ++ behind →
      escapeCode? high low = none) :
    toSegment (String.singleton '%' ++ tail) = "%" ++ toSegment tail := by
  have hchars : (String.singleton '%' ++ tail).toList = '%' :: tail.toList := by simp
  have hplain : ∀ high low rest, '%' :: tail.toList = '%' :: high :: low :: rest →
      escapeCode? high low = none := by
    intro high low rest htail
    refine h high low (String.ofList rest) ?_
    rw [← String.ofList_append, ← String.ofList_toList (s := tail), (List.cons.inj htail).2]
    rfl
  unfold toSegment
  rw [hchars, unescapeChars_plain hplain, String.ofList_cons]
  rfl

/-- **The scan ends without cutting a character**, and gives what unescaping gives. -/
theorem scan?_eq (out rest : String) : scan? out rest = some (out ++ toSegment rest) := by
  -- one round of the scan: no percent sign, a code behind it, or a stray sign
  fun_induction scan? out rest with
  | case1 out rest hoffset =>
    have hplain := toSegment_append (Text.not_mem_of_offset? hoffset) ""
    rw [String.append_empty, show toSegment "" = "" from rfl, String.append_empty] at hplain
    rw [hplain]
  | case2 out rest i hoffset hcut =>
    obtain ⟨_, _, -, -, hbefore, -⟩ := cut?_of_offset? hoffset
    cases hcut.symm.trans hbefore
  | case3 out rest i hoffset before _ _ n hread hcut =>
    obtain ⟨_, _, -, -, -, hfront⟩ := cut?_of_offset? hoffset
    obtain ⟨high, low, behind, rfl, hcode⟩ := (code_behind_iff hfront).mp hread
    cases hcut.symm.trans (cut?_behind_code hfront hcode)
  | case4 out rest i hoffset before _ hbefore n hread _ tail hcut ih =>
    obtain ⟨_, _, hrest, hnot, hbefore', hfront⟩ := cut?_of_offset? hoffset
    obtain ⟨high, low, behind, rfl, hcode⟩ := (code_behind_iff hfront).mp hread
    cases hbefore.symm.trans hbefore'
    cases hcut.symm.trans (cut?_behind_code hfront hcode)
    rw [ih, hrest, toSegment_append hnot, toSegment_escape hcode]
    simp only [String.append_assoc]
  | case5 out rest i hoffset before _ _ hread hcut =>
    obtain ⟨_, _, -, -, -, hfront⟩ := cut?_of_offset? hoffset
    cases hcut.symm.trans hfront
  | case6 out rest i hoffset before _ hbefore hread _ tail hcut ih =>
    obtain ⟨_, _, hrest, hnot, hbefore', hfront⟩ := cut?_of_offset? hoffset
    cases hbefore.symm.trans hbefore'
    cases hcut.symm.trans hfront
    have hstray : ∀ high low behind, tail = String.ofList [high, low] ++ behind →
        escapeCode? high low = none := by
      intro high low behind htail
      refine Option.eq_none_iff_forall_ne_some.mpr fun n hcode => ?_
      cases hread.symm.trans ((code_behind_iff hfront).mpr ⟨high, low, behind, htail, hcode⟩)
    rw [ih, hrest, toSegment_append hnot, toSegment_stray hstray]
    simp only [String.append_assoc]

/-- **Exactly what a token says.**  For every token the scan by byte offsets ends, cuts no character
and gives its segment, and this is the one text that the token says with all codes that are
accepted: two digits, or a plus sign and a digit.  With codes of two digits alone the token says the
same exactly if no plus sign stands between a percent sign and a digit. -/
theorem toSegment_exact (token : String) :
    scan? "" token = some (toSegment token) ∧
      (∀ text, Says Accepted token.toList text ↔ text = (toSegment token).toList) ∧
      (Says TwoDigits token.toList (toSegment token).toList ↔ ¬ HoldsSigned token.toList) := by
  have hsays : Says Accepted token.toList (toSegment token).toList := by
    unfold toSegment
    rw [String.toList_ofList]
    exact says_unescapeChars token.toList
  refine ⟨?_, fun text => ⟨fun htext => htext.unique hsays fun _ _ _ _ => Accepted.unique, ?_⟩,
    hsays.not_holdsSigned, hsays.twoDigits⟩
  · rw [scan?_eq, String.empty_append]
  · rintro rfl
    exact hsays

/-- A percent sign in front of a plus sign is not copied: the token says itself with codes of two
digits, and its segment is another text. -/
theorem toSegment_signed_digit :
    toSegment "50%+a" = "50\n" ∧ Says TwoDigits "50%+a".toList "50%+a".toList ∧
      ¬ Says TwoDigits "50%+a".toList (toSegment "50%+a").toList := by
  have hsegment : toSegment "50%+a" = "50\n" := by decide +kernel
  have hitself : Says TwoDigits "50%+a".toList "50%+a".toList := by
    refine .copy_of_ne (by decide) (.copy_of_ne (by decide) (.copy ?_
      (.copy_of_ne (by decide) (.copy_of_ne (by decide) .nil))))
    rintro high low tail n hcs ⟨h, l, hhigh, -, -⟩
    cases hcs
    exact hhigh.ne_plus rfl
  refine ⟨hsegment, hitself, fun hsays => ?_⟩
  have hsame := hsays.unique hitself fun _ _ _ _ h h' => Accepted.unique (.inl h) (.inl h')
  rw [hsegment] at hsame
  exact absurd hsame (by decide)

end Coordination.Topic.Subject
