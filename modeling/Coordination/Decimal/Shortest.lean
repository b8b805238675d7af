import Coordination.Decimal.Binary64
/-!
# Shortest decimal of a binary number

Of the decimals that read back as a given number, one with the fewest digits, and of those the
one nearest to the number.
-/

namespace Coordination.Decimal

/-- A positive decimal `digits · 10 ^ exponent`. -/
structure Scientific where
  /-- The digits as a natural number. -/
  digits : Nat
  /-- The place of the last digit. -/
  exponent : Int
deriving DecidableEq, Repr

/-- The decimal digits of a number, the highest first. -/
def digitChars (n : Nat) : List Char := Nat.toDigits 10 n

/-- The largest `k` with `10 ^ k ≤ numerator / denominator`, searched downwards from `k`. -/
def magnitude (numerator denominator : Nat) : Nat → Int → Int
  | 0, k => k
  | fuel + 1, k =>
    if denominator * Nat.pow 10 k.toNat ≤ numerator * Nat.pow 10 (-k).toNat then k
    else magnitude numerator denominator fuel (k - 1)

namespace Binary64

/-- Four times the significand, so that the ends of the rounding interval are integers. -/
def center (x : Binary64) : Nat := 4 * x.significand

/-- The lower end of the interval that rounds to `x`: half a step down, or a quarter of the step
above where the step below is half as wide. -/
def lowEnd (x : Binary64) : Nat :=
  if x.fractionBits = 0 ∧ 1 < x.exponentBits then x.center - 1 else x.center - 2

/-- The upper end of the interval that rounds to `x`: half a step up. -/
def highEnd (x : Binary64) : Nat := x.center + 2

/-- Compares `candidate · 10 ^ k` with `quarters · 2 ^ (scale - 2)` after clearing denominators;
the two naturals are in the order of the two numbers. -/
def sides (x : Binary64) (k : Int) (candidate quarters : Nat) : Nat × Nat :=
  let q := x.scale - 2
  (candidate * Nat.pow 10 k.toNat * Nat.pow 2 (-q).toNat,
    quarters * Nat.pow 2 q.toNat * Nat.pow 10 (-k).toNat)

/-- Whether `candidate · 10 ^ k` reads back as `x`: the ends of the interval belong to it exactly
when the significand is even. -/
def readsBack (x : Binary64) (k : Int) (candidate : Nat) : Bool :=
  let low := x.sides k candidate x.lowEnd
  let high := x.sides k candidate x.highEnd
  if x.significand % 2 = 0 then low.2 ≤ low.1 && high.1 ≤ high.2
  else low.2 < low.1 && high.1 < high.2

/-- The neighbour of `x` on the grid of multiples of `10 ^ k` that reads back as `x` and is
nearest to it; a tie goes to the even one. -/
def onGrid? (x : Binary64) (k : Int) : Option Nat :=
  let (unit, value) := x.sides k 1 x.center
  let below := value / unit
  let rest := 2 * (value % unit)
  let nearLow := rest < unit || (rest = unit && below % 2 = 0)
  let first := if nearLow then below else below + 1
  let second := if nearLow then below + 1 else below
  if first ≠ 0 && x.readsBack k first then some first
  else if second ≠ 0 && x.readsBack k second then some second
  else none

/-- The coarsest grid from `10 ^ k` downwards on which a neighbour of `x` reads back. -/
def search (x : Binary64) : Nat → Int → Option Scientific
  | 0, _ => none
  | fuel + 1, k =>
    match x.onGrid? k with
    | some digits => some ⟨digits, k⟩
    | none => search x fuel (k - 1)

/-- The shortest decimal of the magnitude of a finite number; a zero has none.  Seventeen digits
always suffice, and the first grid tried lies one place above the first digit. -/
def shortest? (x : Binary64) : Option Scientific :=
  let (numerator, denominator) := x.ratio
  if numerator = 0 then none else x.search 18 (magnitude numerator denominator 700 309 + 1)

end Binary64

end Coordination.Decimal
