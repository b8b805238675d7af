import Coordination.Proofs.Clock.Calendar
import Mathlib.Algebra.Group.Nat.Defs
import Mathlib.Data.List.Basic
/-!
# Stamps sort by time

A stamp is a list of numbers in a form of fixed widths, the greatest unit first, as long as the year
has four digits.  Numbers in a form sort as the lists do, and a later millisecond has a later list.
-/

namespace Coordination

/-! ## Numbers of fixed width -/

/-- The digits of values below ten ascend. -/
theorem digit_lt : ∀ n < 10, ∀ m < n, Char.ofNat (48 + m) < Char.ofNat (48 + n) := by
  decide

/-- The digits of the smaller number come first, whatever follows. -/
theorem fixedDigits_append_lt {width n m : Nat} (hlt : n < m) (hm : m < 10 ^ width)
    (rest rest' : List Char) : fixedDigits width n ++ rest < fixedDigits width m ++ rest' := by
  -- by induction on the width, as the last digit decides only among equal leading ones
  induction width generalizing n m rest rest' with
  | zero => omega
  | succ width ih =>
    have hquotient : m / 10 < 10 ^ width := by
      rw [Nat.pow_succ] at hm
      omega
    unfold fixedDigits
    rw [List.append_assoc, List.append_assoc]
    by_cases hlead : n / 10 = m / 10
    · have hlast : Char.ofNat (48 + n % 10) < Char.ofNat (48 + m % 10) :=
        digit_lt (m % 10) (by omega) (n % 10) (by omega)
      rw [hlead]
      exact List.append_left_lt (List.cons_lt_cons_iff.mpr (.inl hlast))
    · exact ih (by omega) hquotient _ _

/-! ## Forms -/

/-- Numbers of given widths, each with the character that stands behind it. -/
abbrev NumberForm := List (Nat × Char)

namespace NumberForm

/-- Numbers in a form. -/
def chars : NumberForm → List Nat → List Char
  | (width, mark) :: form, n :: numbers => fixedDigits width n ++ mark :: chars form numbers
  | _, _ => []

/-- Whether there is a number for each width, and it fits. -/
def Fits (form : NumberForm) (numbers : List Nat) : Prop :=
  List.Forall₂ (fun place n => n < 10 ^ place.1) form numbers

/-- **Numbers in a form sort as lists.** -/
theorem chars_lt {form : NumberForm} {numbers numbers' : List Nat} (h : form.Fits numbers)
    (h' : form.Fits numbers') (hlt : numbers < numbers') :
    form.chars numbers < form.chars numbers' := by
  induction h generalizing numbers' with
  | nil =>
    cases h'
    exact absurd hlt (List.not_lt_nil _)
  | @cons place n form numbers hn _ ih =>
    cases h' with
    | @cons _ n' _ numbers' hn' hrest =>
      unfold chars
      -- the first number decides, or the rest after equal first ones
      rcases List.cons_lt_cons_iff.mp hlt with hfirst | ⟨rfl, hlater⟩
      · exact fixedDigits_append_lt hfirst hn' _ _
      · have hchars := ih hrest hlater
        exact List.append_left_lt (List.cons_lt_cons_iff.mpr (.inr ⟨rfl, hchars⟩))

end NumberForm

/-! ## Stamps -/

namespace Stamp

def day (millis : Nat) : CalendarDay := .ofDays (millis / 1000 / 86400)

def year (millis : Nat) : Nat := (day millis).year

/-- The time of the day: hours, minutes, seconds and milliseconds. -/
def time (millis : Nat) : List Nat :=
  [millis / 1000 / 3600 % 24, millis / 1000 / 60 % 60, millis / 1000 % 60, millis % 1000]

/-- The form of a stamp whose year has four digits. -/
def form : NumberForm :=
  [(4, '-'), (2, '-'), (2, 'T'), (2, ':'), (2, ':'), (2, '.'), (3, 'Z')]

/-- A stamp is the date and the time in this form. -/
theorem stampChars_eq {millis : Nat} (h : year millis ≤ 9999) :
    stampChars millis = form.chars ((day millis).numbers ++ time millis) := by
  have hyear : yearChars (CalendarDay.ofDays (millis / 1000 / 86400)).year =
      fixedDigits 4 (CalendarDay.ofDays (millis / 1000 / 86400)).year := if_pos h
  simp only [stampChars, hyear, form, NumberForm.chars, CalendarDay.numbers, time, day,
    List.append_assoc, List.cons_append, List.nil_append]

/-- Date and time fit the form. -/
theorem fits_numbers {millis : Nat} (h : year millis ≤ 9999) :
    form.Fits ((day millis).numbers ++ time millis) := by
  have hbounds := CalendarDay.ofDays_bounds (millis / 1000 / 86400)
  have hyear : (day millis).year < 10 ^ 4 := Nat.lt_succ_of_le h
  have hmonth : (day millis).month < 10 ^ 2 := Nat.lt_of_le_of_lt hbounds.1 (by decide)
  have hday : (day millis).day < 10 ^ 2 := Nat.lt_of_le_of_lt hbounds.2 (by decide)
  unfold NumberForm.Fits form CalendarDay.numbers time
  refine .cons hyear (.cons hmonth (.cons hday (.cons ?_ (.cons ?_ (.cons ?_ (.cons ?_ .nil))))))
  all_goals
    dsimp only
    omega

/-- Later on the same day it is a later time. -/
theorem time_lt {m m' : Nat} (h : m < m') (hday : m / 1000 / 86400 = m' / 1000 / 86400) :
    time m < time m' := by
  simp only [time, List.cons_lt_cons_iff, List.not_lt_nil, and_false, or_false]
  omega

/-- A later millisecond has a later date, or the same one and a later time. -/
theorem numbers_lt {m m' : Nat} (h : m < m') :
    (day m).numbers ++ time m < (day m').numbers ++ time m' := by
  by_cases hday : m / 1000 / 86400 = m' / 1000 / 86400
  · have hsame : day m = day m' := congrArg CalendarDay.ofDays hday
    rw [hsame]
    exact List.append_left_lt (time_lt h hday)
  · have hlater : m / 1000 / 86400 < m' / 1000 / 86400 := by omega
    have hdate := CalendarDay.numbers_ofDays_lt hlater
    -- dates have three numbers each, so the times do not decide
    simp only [CalendarDay.numbers, List.cons_lt_cons_iff, List.not_lt_nil, and_false,
      or_false] at hdate
    simp only [CalendarDay.numbers, day, List.cons_append, List.cons_lt_cons_iff]
    omega

/-- A later millisecond is not in an earlier year. -/
theorem year_le {m m' : Nat} (h : m ≤ m') : year m ≤ year m' := by
  rcases Nat.eq_or_lt_of_le h with rfl | hlt
  · exact Nat.le_refl _
  · have hnumbers := numbers_lt hlt
    rcases List.cons_lt_cons_iff.mp hnumbers with hyear | hyear
    · exact Nat.le_of_lt hyear
    · exact Nat.le_of_eq hyear.1

/-- **A later millisecond has a later stamp**, up to the end of the year 9999. -/
theorem stampChars_lt {m m' : Nat} (h : m < m') (hyear : year m' ≤ 9999) :
    stampChars m < stampChars m' := by
  have hyear' : year m ≤ 9999 := Nat.le_trans (year_le (Nat.le_of_lt h)) hyear
  rw [stampChars_eq hyear, stampChars_eq hyear']
  exact NumberForm.chars_lt (fits_numbers hyear') (fits_numbers hyear) (numbers_lt h)

end Stamp

end Coordination
