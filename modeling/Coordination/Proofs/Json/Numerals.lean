import Coordination.Proofs.Json.Written
import Mathlib.Data.List.Basic
/-!
# Numbers as numerals

What the writer writes for a number is a numeral of the format: digits without a needless zero in
front, then perhaps a point with more digits, then perhaps an exponent.  So every number is legible,
unless it is infinite or no number at all, which no text of the format denotes.
-/

namespace Coordination.Json

open Reader

/-! ## Digits -/

/-- A text of decimal digits. -/
structure IsDigits (cs : List Char) : Prop where
  ne_nil : cs ≠ []
  isSome_digit? : ∀ c ∈ cs, (digit? c).isSome = true

/-- A text that begins with no digit. -/
def EndsDigits (rest : List Char) : Prop := ∀ c ∈ rest.head?, digit? c = none

theorem EndsItem.endsDigits {rest : List Char} (h : EndsItem rest) : EndsDigits rest := by
  intro c hc
  rcases h with rfl | ⟨c', cs, rfl, hmark⟩
  · cases hc
  · obtain rfl := Option.some.inj hc
    rcases hmark with rfl | rfl | rfl <;> rfl

/-- Digits are taken up to what is none. -/
theorem digits_append {cs rest : List Char} (h : ∀ c ∈ cs, (digit? c).isSome = true)
    (hrest : EndsDigits rest) : digits (cs ++ rest) = (cs.filterMap digit?, rest) := by
  induction cs with
  | nil =>
    cases rest with
    | nil => rfl
    | cons c rest =>
      have hc : digit? c = none := hrest c rfl
      simp [digits, hc]
  | cons c cs ih =>
    obtain ⟨d, hd⟩ := Option.isSome_iff_exists.mp (h c List.mem_cons_self)
    have htail := ih fun c' hc' => h c' (List.mem_cons_of_mem _ hc')
    simp [digits, hd, htail]

theorem someDigits?_append {cs rest : List Char} (h : IsDigits cs) (hrest : EndsDigits rest) :
    someDigits? (cs ++ rest) = some (cs.filterMap digit?, rest) := by
  obtain ⟨hne, hdigits⟩ := h
  unfold someDigits?
  rw [digits_append hdigits hrest]
  cases cs with
  | nil => exact absurd rfl hne
  | cons c cs =>
    obtain ⟨d, hd⟩ := Option.isSome_iff_exists.mp (hdigits c List.mem_cons_self)
    rw [List.filterMap_cons_some hd]

/-! ## Numerals -/

/-- A numeral by the texts of its parts. -/
structure Spelling where
  /-- Whether a minus sign stands in front. -/
  negative : Bool
  /-- The digits before the point. -/
  whole : List Char
  /-- The digits after the point, if there is one. -/
  fraction : Option (List Char) := none
  /-- The exponent, if there is one: whether it is negative, and its digits. -/
  exponent : Option (Bool × List Char) := none

namespace Spelling

/-- The point and the digits behind it. -/
def fractionChars : Option (List Char) → List Char
  | none => []
  | some ds => '.' :: ds

/-- The exponent with its letter and its sign. -/
def exponentChars : Option (Bool × List Char) → List Char
  | none => []
  | some (negative, ds) => 'e' :: (if negative then '-' else '+') :: ds

/-- The text without the sign in front. -/
def magnitudeChars (x : Spelling) : List Char :=
  x.whole ++ (fractionChars x.fraction ++ exponentChars x.exponent)

/-- The text. -/
def chars (x : Spelling) : List Char :=
  if x.negative then '-' :: x.magnitudeChars else x.magnitudeChars

def numeral (x : Spelling) : Numeral :=
  ⟨x.negative, x.whole.filterMap digit?, x.fraction.map (·.filterMap digit?),
    x.exponent.map fun e => (e.1, e.2.filterMap digit?)⟩

/-- Whether the format has the text for a numeral: each part has a digit, and a zero in front stands
alone. -/
structure IsNumeral (x : Spelling) : Prop where
  whole : IsDigits x.whole
  zero_alone : x.whole.head? = some '0' → x.whole.length = 1
  fraction : ∀ ds ∈ x.fraction, IsDigits ds
  exponent : ∀ e ∈ x.exponent, IsDigits e.2

variable {x : Spelling}

theorem endsDigits_exponentChars (e : Option (Bool × List Char)) {rest : List Char}
    (hrest : EndsItem rest) : EndsDigits (exponentChars e ++ rest) := by
  cases e with
  | none => exact hrest.endsDigits
  | some e =>
    intro c hc
    obtain rfl := Option.some.inj hc
    rfl

theorem endsDigits_fractionChars (f : Option (List Char)) {rest : List Char}
    (hrest : EndsDigits rest) : EndsDigits (fractionChars f ++ rest) := by
  cases f with
  | none => exact hrest
  | some ds =>
    intro c hc
    obtain rfl := Option.some.inj hc
    rfl

/-- The exponent is read up to what ends the item. -/
theorem exponent?_exponentChars {e : Option (Bool × List Char)} (h : ∀ e' ∈ e, IsDigits e'.2)
    {rest : List Char} (hrest : EndsItem rest) :
    exponent? (exponentChars e ++ rest) =
      some (e.map fun e => (e.1, e.2.filterMap digit?), rest) := by
  cases e with
  | none =>
    rcases hrest with rfl | ⟨c, cs, rfl, hmark⟩
    · rfl
    · rcases hmark with rfl | rfl | rfl <;> rfl
  | some e =>
    obtain ⟨negative, ds⟩ := e
    have hds := someDigits?_append (h _ rfl) hrest.endsDigits
    cases negative <;> simp [exponentChars, exponent?, hds]

theorem fraction?_fractionChars {f : Option (List Char)} (h : ∀ ds ∈ f, IsDigits ds)
    (e : Option (Bool × List Char)) {rest : List Char} (hrest : EndsItem rest) :
    fraction? (fractionChars f ++ (exponentChars e ++ rest)) =
      some (f.map (·.filterMap digit?), exponentChars e ++ rest) := by
  cases f with
  | none =>
    -- neither the letter of an exponent nor the end of an item is a point
    cases e with
    | none =>
      rcases hrest with rfl | ⟨c, cs, rfl, hmark⟩
      · rfl
      · rcases hmark with rfl | rfl | rfl <;> rfl
    | some e => rfl
  | some ds =>
    have hds := someDigits?_append (h _ rfl) (endsDigits_exponentChars e hrest)
    simp [fractionChars, fraction?, hds]

/-- Each digit has a value. -/
theorem length_filterMap_digit? {cs : List Char} (h : ∀ c ∈ cs, (digit? c).isSome = true) :
    (cs.filterMap digit?).length = cs.length := by
  induction cs with
  | nil => rfl
  | cons c cs ih =>
    obtain ⟨d, hd⟩ := Option.isSome_iff_exists.mp (h c List.mem_cons_self)
    rw [List.filterMap_cons_some hd, List.length_cons, List.length_cons,
      ih fun c' hc' => h c' (List.mem_cons_of_mem _ hc')]

/-- Only the digit zero has the value zero. -/
theorem eq_zero_of_digit? {c : Char} (h : digit? c = some 0) : c = '0' := by
  unfold digit? at h
  split at h
  · next hdigit =>
    have hlow : 48 ≤ c.toNat := hdigit.1
    have hvalue : c.toNat - 48 = 0 := Option.some.inj h
    apply Char.toNat_inj.mp
    show c.toNat = 48
    omega
  · cases h

/-- No further digit follows a zero in front. -/
theorem IsNumeral.zero_alone_values (h : x.IsNumeral) :
    ¬ ((x.whole.filterMap digit?).head? = some 0 ∧ (x.whole.filterMap digit?).length ≠ 1) := by
  intro hparts
  obtain ⟨hhead, hlength⟩ := hparts
  obtain ⟨c, cs, hwhole⟩ := List.exists_cons_of_ne_nil h.whole.ne_nil
  obtain ⟨d, hd⟩ := Option.isSome_iff_exists.mp
    (h.whole.isSome_digit? c (hwhole ▸ List.mem_cons_self))
  apply hlength
  rw [length_filterMap_digit? h.whole.isSome_digit?]
  apply h.zero_alone
  rw [hwhole, List.filterMap_cons_some hd] at hhead
  obtain rfl : d = 0 := Option.some.inj hhead
  rw [hwhole, eq_zero_of_digit? hd]
  rfl

/-- The reader behind the sign. -/
theorem IsNumeral.someDigits?_magnitudeChars (h : x.IsNumeral) {rest : List Char}
    (hrest : EndsItem rest) :
    someDigits? (x.magnitudeChars ++ rest) =
      some (x.whole.filterMap digit?,
        fractionChars x.fraction ++ (exponentChars x.exponent ++ rest)) := by
  simp only [magnitudeChars, List.append_assoc]
  exact someDigits?_append h.whole
    (endsDigits_fractionChars x.fraction (endsDigits_exponentChars x.exponent hrest))

/-- No minus sign stands behind the sign. -/
theorem IsNumeral.magnitudeChars_ne_minus (h : x.IsNumeral) (rest tail : List Char) :
    x.magnitudeChars ++ rest ≠ '-' :: tail := by
  intro heq
  obtain ⟨c, cs, hfirst⟩ := List.exists_cons_of_ne_nil h.whole.ne_nil
  have hdigit := h.whole.isSome_digit? c (hfirst ▸ List.mem_cons_self)
  rw [magnitudeChars, hfirst] at heq
  rw [(List.cons.inj heq).1] at hdigit
  cases hdigit

/-- **A numeral of the format is read as its parts.** -/
theorem IsNumeral.numeral?_chars (h : x.IsNumeral) {rest : List Char} (hrest : EndsItem rest) :
    numeral? (x.chars ++ rest) = some (x.numeral, rest) := by
  have hwhole := h.someDigits?_magnitudeChars hrest
  have hfraction := fraction?_fractionChars h.fraction x.exponent hrest
  have hexponent := exponent?_exponentChars h.exponent hrest
  obtain ⟨negative, whole, fraction, exponent⟩ := x
  -- the sign is read first; without one the first character is a digit
  cases negative with
  | true =>
    unfold numeral?
    simp only [chars, if_true, List.cons_append, hwhole, Option.bind_eq_bind, Option.bind_some,
      if_neg h.zero_alone_values, hfraction, hexponent]
    rfl
  | false =>
    unfold numeral?
    simp only [chars, Bool.false_eq_true, if_false]
    split
    · next hminus => exact absurd hminus (h.magnitudeChars_ne_minus _ _)
    · simp only [hwhole, Option.bind_eq_bind, Option.bind_some, if_neg h.zero_alone_values,
        hfraction, hexponent]
      rfl

end Spelling

/-! ## Written numbers -/

/-- The value of a digit as it is written. -/
theorem isSome_digit?_of_isDigit {c : Char} (h : c.isDigit = true) : (digit? c).isSome = true := by
  obtain ⟨hlow, hhigh⟩ := Char.isDigit_iff_toNat.mp h
  have hrange : '0' ≤ c ∧ c ≤ '9' := ⟨hlow, hhigh⟩
  rw [digit?, if_pos hrange]
  rfl

theorem isDigits_digitChars (n : Nat) : IsDigits (Decimal.digitChars n) := by
  constructor
  · exact Nat.toDigits_ne_nil
  · intro c hc
    exact isSome_digit?_of_isDigit (Nat.isDigit_of_mem_toDigits (by decide) (by decide) hc)

theorem isDigits_zero : IsDigits ['0'] := isDigits_digitChars 0

/-- No needless zero stands in front. -/
theorem head?_digitChars_ne {n : Nat} (h : n ≠ 0) : (Decimal.digitChars n).head? ≠ some '0' := by
  unfold Decimal.digitChars
  induction n using Nat.strongRecOn with
  | ind n ih =>
    by_cases hsmall : n < 10
    · have hdigits : ∀ d < 10, d ≠ 0 → [Nat.digitChar d].head? ≠ some '0' := by decide
      rw [Nat.toDigits_of_lt_base hsmall]
      exact hdigits n hsmall h
    · -- the leading digits are those of the tenth part
      rw [Nat.toDigits_of_base_le (by decide) (by omega), List.head?_append_of_ne_nil _
        Nat.toDigits_ne_nil]
      exact ih (n / 10) (by omega) (by omega)

/-- A text that is a numeral under either sign. -/
def IsMagnitude (cs : List Char) : Prop :=
  ∀ negative, ∃ x : Spelling, x.IsNumeral ∧ x.negative = negative ∧ x.magnitudeChars = cs

/-- A text of some of the digits of another, with zeros among them. -/
theorem IsDigits.of_mem {cs ds : List Char} (h : IsDigits ds) (hne : cs ≠ [])
    (hmem : ∀ c ∈ cs, c = '0' ∨ c ∈ ds) : IsDigits cs := by
  refine ⟨hne, fun c hc => ?_⟩
  rcases hmem c hc with rfl | hds
  · rfl
  · exact h.isSome_digit? c hds

/-- Digits with perhaps a fraction and an exponent behind them. -/
theorem isMagnitude_of_parts {whole : List Char} (hwhole : IsDigits whole)
    (hzero : whole.head? = some '0' → whole.length = 1) (fraction : Option (List Char))
    (exponent : Option (Bool × List Char)) (hfraction : ∀ ds ∈ fraction, IsDigits ds)
    (hexponent : ∀ e ∈ exponent, IsDigits e.2) :
    IsMagnitude (whole ++ (Spelling.fractionChars fraction ++ Spelling.exponentChars exponent)) :=
  fun negative => ⟨⟨negative, whole, fraction, exponent⟩, ⟨hwhole, hzero, hfraction, hexponent⟩,
    rfl, rfl⟩

/-- A natural number. -/
theorem isMagnitude_digitChars (n : Nat) : IsMagnitude (Decimal.digitChars n) := by
  have hzero : (Decimal.digitChars n).head? = some '0' → (Decimal.digitChars n).length = 1 := by
    intro hhead
    by_cases hn : n = 0
    · subst hn
      rfl
    · exact absurd hhead (head?_digitChars_ne hn)
  have h := isMagnitude_of_parts (isDigits_digitChars n) hzero none none (by simp) (by simp)
  simpa [Spelling.fractionChars, Spelling.exponentChars] using h

/-- Digits on both sides of a point. -/
theorem isMagnitude_of_point {whole ds : List Char} (hwhole : IsDigits whole)
    (hzero : whole.head? = some '0' → whole.length = 1) (hds : IsDigits ds) :
    IsMagnitude (whole ++ '.' :: ds) := by
  have h := isMagnitude_of_parts hwhole hzero (some ds) none (by simpa using hds) (by simp)
  simpa [Spelling.fractionChars, Spelling.exponentChars] using h

/-- One digit, perhaps more behind a point, and an exponent. -/
theorem isMagnitude_of_exponent {d : Char} {more : List Char} (hdigits : IsDigits (d :: more))
    (first : Int) :
    IsMagnitude ((match d :: more with
      | d :: [] => [d]
      | d :: more => d :: '.' :: more
      | [] => []) ++ 'e' :: (if first < 0 then '-' else '+') ::
        Decimal.digitChars first.natAbs) := by
  have hwhole : IsDigits [d] := hdigits.of_mem (by simp) (by simp)
  have hexponent := isDigits_digitChars first.natAbs
  -- one digit stands alone; more of them need the point after the first
  cases more with
  | nil =>
    have h := isMagnitude_of_parts hwhole (by simp) none
      (some (decide (first < 0), Decimal.digitChars first.natAbs)) (by simp)
      (by simpa using hexponent)
    simpa [Spelling.fractionChars, Spelling.exponentChars] using h
  | cons d' more =>
    have hfraction : IsDigits (d' :: more) :=
      hdigits.of_mem (by simp) fun c hc => .inr (List.mem_cons_of_mem _ hc)
    have h := isMagnitude_of_parts hwhole (by simp) (some (d' :: more))
      (some (decide (first < 0), Decimal.digitChars first.natAbs)) (by simpa using hfraction)
      (by simpa using hexponent)
    simpa [Spelling.fractionChars, Spelling.exponentChars] using h

/-- A positive decimal, in each of its forms. -/
theorem isMagnitude_scientificChars (format : BinaryFormat) {x : Decimal.Scientific}
    (h : x.digits ≠ 0) : IsMagnitude (scientificChars format x) := by
  have hdigits := isDigits_digitChars x.digits
  have hhead := head?_digitChars_ne h
  unfold scientificChars
  generalize Decimal.digitChars x.digits = ds at hdigits hhead
  obtain ⟨d, more, rfl⟩ := List.exists_cons_of_ne_nil hdigits.ne_nil
  have hd : d ≠ '0' := fun heq => hhead (heq ▸ rfl)
  dsimp only
  -- where the point stands depends on the exponent of the first digit alone
  generalize hfirst : x.exponent + ((d :: more).length : Int) - 1 = first
  rw [List.length_cons] at hfirst
  split
  · split
    · -- zeros follow the digits
      have hwhole : IsDigits (d :: more ++ List.replicate x.exponent.toNat '0') :=
        hdigits.of_mem (by simp) fun c hc =>
          (List.mem_append.mp hc).symm.imp_left List.eq_of_mem_replicate
      exact isMagnitude_of_point hwhole (by simp [hd]) isDigits_zero
    · split
      · -- the point stands among the digits
        have hwhole : IsDigits ((d :: more).take (first.toNat + 1)) :=
          hdigits.of_mem (by simp) fun c hc => .inr (List.mem_of_mem_take hc)
        have hbehind : (d :: more).drop (first.toNat + 1) ≠ [] := by
          rw [ne_eq, List.drop_eq_nil_iff, List.length_cons]
          omega
        have hfraction : IsDigits ((d :: more).drop (first.toNat + 1)) :=
          hdigits.of_mem hbehind fun c hc => .inr (List.mem_of_mem_drop hc)
        exact isMagnitude_of_point hwhole (by simp [hd]) hfraction
      · -- zeros stand between the point and the digits
        have hfraction : IsDigits (List.replicate (-first - 1).toNat '0' ++ d :: more) :=
          hdigits.of_mem (by simp) fun c hc =>
            (List.mem_append.mp hc).imp_left List.eq_of_mem_replicate
        exact isMagnitude_of_point isDigits_zero (by simp) hfraction
  · exact isMagnitude_of_exponent hdigits first

/-! ## Every number -/

/-- A number that is neither infinite nor a non-number. -/
def Number.IsFinite : Number → Prop
  | .integer _ => True
  | .binary x => x.isFinite = true

/-- A text that is a magnitude behind a sign is read as a numeral. -/
theorem IsMagnitude.legible {cs : List Char} (h : IsMagnitude cs) (negative : Bool) {n : Number}
    (hn : numberChars n = if negative then '-' :: cs else cs) : n.Legible := by
  obtain ⟨x, hx, rfl, rfl⟩ := h negative
  have hchars : numberChars n = x.chars := hn
  intro rest hrest
  have halone := hx.numeral?_chars (Or.inl (Eq.refl []))
  rw [List.append_nil] at halone
  refine ⟨x.numeral, by rw [hchars, hx.numeral?_chars hrest], ?_⟩
  rw [Number.denoted, hchars, halone]
  rfl

/-- The digits of the shortest decimal are those of a positive number. -/
theorem digits_ne_zero_of_search {x : Decimal.Binary64} {fuel : Nat} {k : Int}
    {d : Decimal.Scientific} (h : x.search fuel k = some d) : d.digits ≠ 0 := by
  induction fuel generalizing k with
  | zero => cases h
  | succ fuel ih =>
    unfold Decimal.Binary64.search at h
    split at h
    · next digits hgrid =>
      obtain rfl := Option.some.inj h
      unfold Decimal.Binary64.onGrid? at hgrid
      grind
    · exact ih h

/-- **Every finite number is written as a numeral.** -/
theorem Number.IsFinite.legible {n : Number} (h : n.IsFinite) : n.Legible := by
  cases n with
  | integer n =>
    refine (isMagnitude_digitChars n.natAbs).legible (decide (n < 0)) ?_
    simp only [numberChars, integerChars, decide_eq_true_eq]
  | binary x =>
    have hfinite : x.isFinite = true := h
    -- a number without digits is a zero; any other has shortest digits, not all of them zero
    cases hshortest : x.shortest? with
    | none =>
      have hzero : IsMagnitude ['0', '.', '0'] :=
        isMagnitude_of_point isDigits_zero (by simp) isDigits_zero
      refine hzero.legible x.isNegative ?_
      cases hsign : x.isNegative <;> simp [numberChars, binaryChars, hfinite, hshortest, hsign]
    | some d =>
      have hdigits : d.digits ≠ 0 := by
        unfold Decimal.Binary64.shortest? at hshortest
        dsimp only at hshortest
        split at hshortest
        · cases hshortest
        · exact digits_ne_zero_of_search hshortest
      refine (isMagnitude_scientificChars binaryFormat hdigits).legible x.isNegative ?_
      cases hsign : x.isNegative <;> simp [numberChars, binaryChars, hfinite, hshortest, hsign]

/-- A value that the format has a text for: none of its numbers is infinite or a non-number. -/
def Value.IsFinite (v : Value) : Prop := v.AllNumbers Number.IsFinite

/-- **The text of a value is read**, as the document of the value up to its numbers. -/
theorem Value.IsFinite.read?_render {v : Value} (h : v.IsFinite) :
    Document.read? v.render = some (v.document Number.denoted) :=
  Document.read?_of_legible (h.imp fun _ hn => hn.legible)

end Coordination.Json
