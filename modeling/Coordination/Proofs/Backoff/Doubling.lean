import Coordination.Backoff
import Mathlib.Algebra.Group.Nat.Defs
import Mathlib.Order.Monotone.Basic
/-!
# Delays in closed form

A span is kept in two words, the whole seconds and the nanoseconds beyond them.  Twice a span
carries from one word into the other, and may be too long for both.  In words as on the whole span,
doubling is exact as long as it fits, and what does not fit is longer than any cap.  So the delay of
number `n` is the first one times `2 ^ n`, or the cap.
-/

namespace Coordination

namespace Duration

/-! ## Spans by their nanoseconds -/

theorem eq_of_nanos {a b : Duration} (h : a.nanos = b.nanos) : a = b := by
  cases a
  cases b
  cases h
  rfl

theorem nanos_le_longest (d : Duration) : d.nanos ≤ longest.nanos := by
  have hbound := d.bounded
  unfold longest
  dsimp only
  omega

theorem nanos_min (a b : Duration) : (a.min b).nanos = Min.min a.nanos b.nanos := by
  unfold Duration.min
  split
  · next hle => exact (Nat.min_eq_left hle).symm
  · next hle => exact (Nat.min_eq_right (by omega)).symm

/-- Twice a span is exact, unless it is the longest one. -/
theorem nanos_double (d : Duration) : d.double.nanos = Min.min (2 * d.nanos) longest.nanos := by
  unfold double ofNanos
  split
  · next hfits => exact (Nat.min_eq_left (nanos_le_longest ⟨2 * d.nanos, hfits⟩)).symm
  · next hfits =>
    refine (Nat.min_eq_right ?_).symm
    unfold longest
    dsimp only
    omega

/-! ## Spans in two words -/

/-- A span in two words. -/
structure Words where
  /-- The whole seconds. -/
  seconds : UInt64
  /-- The nanoseconds beyond them. -/
  nanos : UInt32
  /-- There is no second among them. -/
  nanos_lt : nanos.toNat < 1000000000
deriving DecidableEq

def word? (n : Nat) : Option UInt64 := if n < UInt64.size then some (.ofNat n) else none

theorem word?_eq_some_iff {n : Nat} {w : UInt64} : word? n = some w ↔ w.toNat = n := by
  unfold word?
  split
  · next hfits =>
    rw [Option.some_inj, ← UInt64.toNat_inj, UInt64.toNat_ofNat_of_lt' hfits]
    exact eq_comm
  · next hfits =>
    have hword := w.toNat_lt_size
    simp only [reduceCtorEq, false_iff]
    omega

/-- The nanoseconds of a number of them that are not whole seconds. -/
theorem toNat_rest (total : UInt64) :
    (total % 1000000000).toUInt32.toNat = total.toNat % 1000000000 := by
  have hrest : (total % 1000000000).toNat = total.toNat % 1000000000 := by
    rw [UInt64.toNat_mod]
    rfl
  rw [UInt64.toNat_toUInt32, hrest, Nat.mod_eq_of_lt]
  omega

namespace Words

/-- The whole of a span. -/
def span (w : Words) : Duration where
  nanos := w.seconds.toNat * 1000000000 + w.nanos.toNat
  bounded := by
    have hseconds := w.seconds.toNat_lt_size
    have hnanos := w.nanos_lt
    omega

def longest : Words := ⟨18446744073709551615, 999999999, by decide⟩

def min (a b : Words) : Words :=
  if a.seconds < b.seconds ∨ a.seconds = b.seconds ∧ a.nanos ≤ b.nanos then a else b

/-- A number of times a span, if the seconds fit their word.  The nanoseconds are multiplied in a
word that holds them, and the whole seconds among them are carried. -/
def times? (w : Words) (k : UInt32) : Option Words :=
  let total := w.nanos.toUInt64 * k.toUInt64
  (word? (w.seconds.toNat * k.toNat)).bind fun seconds =>
    (word? (seconds.toNat + (total / 1000000000).toNat)).map fun seconds =>
      { seconds
        nanos := (total % 1000000000).toUInt32
        nanos_lt := by
          rw [toNat_rest]
          omega }

def double (w : Words) : Words := (w.times? 2).getD longest

/-- The delay of number `n` in words. -/
def delay (initial max : Words) : Nat → Words
  | 0 => initial.min max
  | n + 1 => (delay initial max n).double.min max

theorem nanos_span (w : Words) :
    w.span.nanos = w.seconds.toNat * 1000000000 + w.nanos.toNat := rfl

/-- The words of a span are those of no other. -/
theorem span_injective : Function.Injective span := by
  intro a b h
  have hnanos := congrArg Duration.nanos h
  rw [nanos_span, nanos_span] at hnanos
  have ha := a.nanos_lt
  have hb := b.nanos_lt
  have hseconds : a.seconds = b.seconds := UInt64.toNat_inj.mp (by omega)
  have hrest : a.nanos = b.nanos := UInt32.toNat_inj.mp (by omega)
  cases a
  cases b
  cases hseconds
  cases hrest
  rfl

theorem span_longest : longest.span = Duration.longest := rfl

theorem span_min (a b : Words) : (a.min b).span = a.span.min b.span := by
  have ha := a.nanos_lt
  have hb := b.nanos_lt
  have horder : (a.seconds < b.seconds ∨ a.seconds = b.seconds ∧ a.nanos ≤ b.nanos) ↔
      a.span.nanos ≤ b.span.nanos := by
    rw [UInt64.lt_iff_toNat_lt, ← UInt64.toNat_inj, UInt32.le_iff_toNat_le, nanos_span, nanos_span]
    omega
  unfold min Duration.min
  by_cases hle : a.span.nanos ≤ b.span.nanos
  · rw [if_pos (horder.mpr hle), if_pos hle]
  · rw [if_neg (mt horder.mp hle), if_neg hle]

/-- The nanoseconds of some spans fit a word. -/
theorem toNat_total (w : Words) (k : UInt32) :
    (w.nanos.toUInt64 * k.toUInt64).toNat = w.nanos.toNat * k.toNat := by
  rw [UInt64.toNat_mul, UInt32.toNat_toUInt64, UInt32.toNat_toUInt64]
  refine Nat.mod_eq_of_lt ?_
  have hnanos : w.nanos.toNat < 2 ^ 32 := w.nanos.toNat_lt
  have hk : k.toNat < 2 ^ 32 := k.toNat_lt
  calc w.nanos.toNat * k.toNat < 2 ^ 32 * 2 ^ 32 := Nat.mul_lt_mul_of_lt_of_lt hnanos hk
    _ = 2 ^ 64 := by decide

/-- **Multiplication in words is exact, and fails only if the product has no words.** -/
theorem times?_eq_some_iff {w v : Words} {k : UInt32} :
    w.times? k = some v ↔ v.span.nanos = w.span.nanos * k.toNat := by
  have hcarry : (w.nanos.toUInt64 * k.toUInt64 / 1000000000).toNat =
      w.nanos.toNat * k.toNat / 1000000000 := by
    rw [UInt64.toNat_div, toNat_total]
    rfl
  have hrest : (w.nanos.toUInt64 * k.toUInt64 % 1000000000).toUInt32.toNat =
      w.nanos.toNat * k.toNat % 1000000000 := by
    rw [toNat_rest, toNat_total]
  have hproduct : w.span.nanos * k.toNat =
      w.seconds.toNat * k.toNat * 1000000000 + w.nanos.toNat * k.toNat := by
    rw [nanos_span, Nat.add_mul, Nat.mul_right_comm]
  rw [hproduct, nanos_span]
  simp only [times?, Option.bind_eq_some_iff, Option.map_eq_some_iff, word?_eq_some_iff]
  -- what is left is linear in the product of the seconds and that of the nanoseconds
  constructor
  · rintro ⟨seconds, hseconds, sum, hsum, rfl⟩
    dsimp only
    omega
  · intro hexact
    have hv := v.nanos_lt
    have hword := v.seconds.toNat_lt_size
    refine ⟨.ofNat (w.seconds.toNat * k.toNat), ?_, v.seconds, ?_, ?_⟩
    · exact UInt64.toNat_ofNat_of_lt' (by omega)
    · rw [UInt64.toNat_ofNat_of_lt' (by omega)]
      omega
    · -- the rest is below a second on both sides
      have hnanos : (w.nanos.toUInt64 * k.toUInt64 % 1000000000).toUInt32 = v.nanos :=
        UInt32.toNat_inj.mp (by omega)
      cases v
      cases hnanos
      rfl

end Words

/-- The words of a span. -/
def words (d : Duration) : Words where
  seconds := .ofNat d.seconds
  nanos := .ofNat d.subNanos
  nanos_lt := by
    have hrest : d.subNanos < 1000000000 := Nat.mod_lt _ (by decide)
    rw [UInt32.toNat_ofNat_of_lt' (Nat.lt_trans hrest (by decide))]
    exact hrest

theorem span_words (d : Duration) : d.words.span = d := by
  have hbound := d.bounded
  have hseconds : (UInt64.ofNat d.seconds).toNat = d.seconds :=
    UInt64.toNat_ofNat_of_lt' (by unfold seconds; omega)
  have hrest : (UInt32.ofNat d.subNanos).toNat = d.subNanos :=
    UInt32.toNat_ofNat_of_lt' (Nat.lt_trans (Nat.mod_lt _ (by decide)) (by decide))
  refine eq_of_nanos ?_
  rw [Words.nanos_span]
  show (UInt64.ofNat d.seconds).toNat * 1000000000 + (UInt32.ofNat d.subNanos).toNat = d.nanos
  rw [hseconds, hrest]
  unfold seconds subNanos
  omega

namespace Words

/-- Doubling in words is doubling. -/
theorem span_double (w : Words) : w.double.span = w.span.double := by
  refine eq_of_nanos ?_
  rw [nanos_double]
  unfold double
  cases htwice : w.times? 2 with
  | some v =>
    have hexact : v.span.nanos = w.span.nanos * 2 := times?_eq_some_iff.mp htwice
    have hlongest := nanos_le_longest v.span
    rw [Option.getD_some, Nat.min_eq_left (by omega)]
    omega
  | none =>
    rw [Option.getD_none, span_longest, Nat.min_eq_right]
    -- words for twice the span would have been found
    by_contra hfits
    have hbound : 2 * w.span.nanos < UInt64.size * 1000000000 := by
      unfold Duration.longest at hfits
      dsimp only at hfits
      omega
    have hwords : w.times? 2 = some (words ⟨2 * w.span.nanos, hbound⟩) := by
      rw [times?_eq_some_iff, span_words]
      exact Nat.mul_comm 2 w.span.nanos
    rw [htwice] at hwords
    cases hwords

/-- A sequence of delays in words is one of whole spans. -/
theorem span_delay (initial max : Words) (n : Nat) :
    (delay initial max n).span = Backoff.delay ⟨initial.span, max.span⟩ n := by
  induction n with
  | zero => exact span_min initial max
  | succ n ih =>
    unfold delay Backoff.delay Backoff.next
    rw [span_min, span_double, ih]

/-- A step of the sequence doubles in words, unless it leads to the cap. -/
theorem delay_succ (initial max : Words) (n : Nat) :
    delay initial max (n + 1) = max ∨
      (delay initial max n).times? 2 = some (delay initial max (n + 1)) := by
  show (double _).min max = max ∨ _ = some ((double _).min max)
  unfold double
  cases (delay initial max n).times? 2 with
  | some v =>
    rw [Option.getD_some]
    unfold min
    split
    · exact .inr rfl
    · exact .inl rfl
  | none =>
    -- no cap is longer than the longest span
    refine .inl (span_injective (eq_of_nanos ?_))
    rw [Option.getD_none, span_min, span_longest, nanos_min]
    exact Nat.min_eq_right (nanos_le_longest max.span)

end Words

end Duration

namespace Backoff

/-! ## The sequence of delays -/

/-- What is lost on a span that is too long lies beyond the cap. -/
theorem nanos_next (b : Backoff) (d : Duration) :
    (b.next d).nanos = min (2 * d.nanos) b.max.nanos := by
  have hcap : min Duration.longest.nanos b.max.nanos = b.max.nanos :=
    Nat.min_eq_right (Duration.nanos_le_longest b.max)
  unfold next
  rw [Duration.nanos_min, Duration.nanos_double, Nat.min_assoc, hcap]

theorem nanos_delay (b : Backoff) (n : Nat) :
    (b.delay n).nanos = min (b.initial.nanos * 2 ^ n) b.max.nanos := by
  induction n with
  | zero =>
    rw [Nat.pow_zero, Nat.mul_one]
    exact Duration.nanos_min b.initial b.max
  | succ n ih =>
    -- the cap of one step is absorbed by that of the next
    have hpow : b.initial.nanos * 2 ^ (n + 1) = 2 * (b.initial.nanos * 2 ^ n) := by
      rw [Nat.pow_succ']
      exact Nat.mul_left_comm _ _ _
    unfold delay
    rw [nanos_next, ih, hpow]
    omega

theorem delaysFrom_eq (b : Backoff) (k n : Nat) :
    b.delaysFrom k (b.delay n) = (List.range' n k).map b.delay := by
  induction k generalizing n with
  | zero => rfl
  | succ k ih =>
    rw [List.range'_succ, List.map_cons, ← ih]
    rfl

/-- The first delays in their order. -/
theorem delays_eq (b : Backoff) (k : Nat) : b.delays k = (List.range k).map b.delay := by
  rw [List.range_eq_range']
  exact delaysFrom_eq b k 0

/-- **The delays in closed form.**  Whatever words the first delay and the cap have, the delay of
number `n` in the sequence is the first one times `2 ^ n`, or the cap if that is less.  It is the
one that doubling in words gives: every step is exact or leads to the cap, and none leads to a
shorter delay. -/
theorem delay_closed_form (initial max : Duration.Words) :
    let b : Backoff := ⟨initial.span, max.span⟩
    let words := Duration.Words.delay initial max
    (∀ k, b.delays k = (List.range k).map b.delay) ∧
    (∀ n, (b.delay n).nanos = min (initial.span.nanos * 2 ^ n) max.span.nanos) ∧
    (∀ n, (words n).span = b.delay n) ∧
    (∀ n, words (n + 1) = max ∨ (words n).times? 2 = some (words (n + 1))) ∧
    Monotone fun n => (b.delay n).nanos := by
  intro b words
  refine ⟨delays_eq b, nanos_delay b, Duration.Words.span_delay initial max,
    Duration.Words.delay_succ initial max, ?_⟩
  refine monotone_nat_of_le_succ fun n => ?_
  have hcap : (b.delay n).nanos ≤ b.max.nanos := by
    rw [nanos_delay]
    exact Nat.min_le_right _ _
  show (b.delay n).nanos ≤ (b.next (b.delay n)).nanos
  rw [nanos_next]
  omega

/-- From half of the longest span on, doubling leads to the cap at once. -/
example : Backoff.delays ⟨.ofSeconds (2 ^ 63), .longest⟩ 3 =
    [.ofSeconds (2 ^ 63), .longest, .longest] := by decide

end Backoff

end Coordination
