/-!
# Binary floating point

A number of the format `binary64` as its sixty-four bits, with the arithmetic that reading a
decimal needs.  Every operation is the exact result rounded to the nearest representable number,
a tie to the one with an even last bit.
-/

namespace Coordination.Decimal

/-- A `binary64` number: a sign bit, eleven bits of exponent and fifty-two bits of fraction. -/
structure Binary64 where
  /-- The bits, the sign first. -/
  bits : UInt64
deriving DecidableEq, Repr

namespace Binary64

/-- The exponent bits that mark infinities and non-numbers. -/
def topExponent : Nat := 2047

def isNegative (x : Binary64) : Bool := Nat.pow 2 63 ≤ x.bits.toNat

def exponentBits (x : Binary64) : Nat := x.bits.toNat / Nat.pow 2 52 % Nat.pow 2 11

def fractionBits (x : Binary64) : Nat := x.bits.toNat % Nat.pow 2 52

/-- Whether the number is neither infinite nor a non-number. -/
def isFinite (x : Binary64) : Bool := x.exponentBits ≠ topExponent

/-- The integer `m` with `|x| = m · 2 ^ q` for the `q` of `scale`. -/
def significand (x : Binary64) : Nat :=
  if x.exponentBits = 0 then x.fractionBits else Nat.pow 2 52 + x.fractionBits

/-- The exponent `q` with `|x| = m · 2 ^ q` for the `m` of `significand`. -/
def scale (x : Binary64) : Int :=
  (max x.exponentBits 1 : Nat) - 1075

/-- Whether the number is a zero of either sign. -/
def isZero (x : Binary64) : Bool := x.bits.toNat % Nat.pow 2 63 = 0

def negate (x : Binary64) : Binary64 := ⟨x.bits ^^^ 0x8000000000000000⟩

/-- The quotient of naturals rounded to the nearest natural, a tie to the even one. -/
def roundQuotient (numerator denominator : Nat) : Nat :=
  let whole := numerator / denominator
  let rest := 2 * (numerator % denominator)
  if rest < denominator ∨ (rest = denominator ∧ whole % 2 = 0) then whole else whole + 1

/-- The non-negative number nearest to a quotient; `none` when it is beyond the largest one. -/
def ofRatio? (numerator denominator : Nat) : Option Binary64 :=
  if numerator = 0 then some ⟨0⟩
  else
    let estimate : Int := (Nat.log2 numerator : Int) - Nat.log2 denominator - 52
    let fits (e : Int) : Bool :=
      numerator * Nat.pow 2 (-e).toNat < Nat.pow 2 53 * denominator * Nat.pow 2 e.toNat
    let low := if fits (estimate - 1) then estimate - 1 else estimate
    let e := max low (-1074)
    let m := roundQuotient (numerator * Nat.pow 2 (-e).toNat) (denominator * Nat.pow 2 e.toNat)
    let bits := (e + 1074).toNat * Nat.pow 2 52 + m
    if bits < topExponent * Nat.pow 2 52 then some ⟨UInt64.ofNat bits⟩ else none

/-- The number nearest to a natural number. -/
def ofNat? (n : Nat) : Option Binary64 := ofRatio? n 1

/-- The magnitude as a quotient of naturals. -/
def ratio (x : Binary64) : Nat × Nat :=
  (x.significand * Nat.pow 2 x.scale.toNat, Nat.pow 2 (-x.scale).toNat)

/-- The product of two non-negative numbers; `none` beyond the largest number. -/
def mul? (x y : Binary64) : Option Binary64 :=
  ofRatio? (x.ratio.1 * y.ratio.1) (x.ratio.2 * y.ratio.2)

/-- The quotient of two non-negative numbers, the second not zero. -/
def div? (x y : Binary64) : Option Binary64 :=
  ofRatio? (x.ratio.1 * y.ratio.2) (x.ratio.2 * y.ratio.1)

/-- The number nearest to a power of ten. -/
def powerOfTen? (n : Nat) : Option Binary64 := ofNat? (Nat.pow 10 n)

/-- Scales a non-negative number by a power of ten in steps of at most `10 ^ 308`, rounding after
each step; `none` when a step leaves the range.  `fuel` bounds the number of steps. -/
def scaleByTen? : Nat → Binary64 → Int → Option Binary64
  | 0, _, _ => none
  | fuel + 1, x, exponent =>
    if exponent.natAbs ≤ 308 then
      (powerOfTen? exponent.natAbs).bind fun power =>
        if 0 ≤ exponent then x.mul? power else x.div? power
    else if x.isZero then some x
    else if 0 ≤ exponent then none
    else (powerOfTen? 308).bind fun power =>
      (x.div? power).bind fun y => scaleByTen? fuel y (exponent + 308)

/-- The number `significand · 10 ^ exponent` as it is read from a numeral: the significand is
rounded first, then it is scaled.  Four steps bring any significand of sixty-four bits to zero. -/
def ofDecimal? (significand : Nat) (exponent : Int) : Option Binary64 :=
  (ofNat? significand).bind fun x => scaleByTen? 4 x exponent

end Binary64

end Coordination.Decimal
