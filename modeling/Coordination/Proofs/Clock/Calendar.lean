import Coordination.Clock
import Mathlib.Order.Basic
/-!
# The calendar goes forward

A later day has a later date: a later year, or a later month of the same year, or a later day of the
same month.  Years are counted from March at first, in eras of four hundred years, since the months
from March on repeat their lengths and the leap day is then the last day of its year.
-/

namespace Coordination

namespace CalendarDay

/-! ## Years of an era -/

/-- The days of an era without the leap days before them, so that a year has 365 of them. -/
def evened (dayOfEra : Nat) : Nat :=
  dayOfEra - dayOfEra / 1460 + dayOfEra / 36524 - dayOfEra / 146096

/-- The year of a day of an era. -/
def yearOfEra (dayOfEra : Nat) : Nat := evened dayOfEra / 365

/-- The first day of a year of an era. -/
def yearStart (year : Nat) : Nat := 365 * year + year / 4 - year / 100

theorem evened_mono {d d' : Nat} (h : d ≤ d') : evened d ≤ evened d' := by
  have hstep : ∀ n, evened n ≤ evened (n + 1) := by
    intro n
    unfold evened
    omega
  induction h with
  | refl => exact Nat.le_refl _
  | step _ ih => exact Nat.le_trans ih (hstep _)

/-- The days of each year are counted to it: so it is for the first of them, and for the last. -/
theorem evened_yearStart : ∀ year < 400,
    365 * year ≤ evened (yearStart year) ∧
      evened (yearStart (year + 1) - 1) < 365 * (year + 1) := by
  decide +kernel

theorem yearOfEra_mono {d d' : Nat} (h : d ≤ d') : yearOfEra d ≤ yearOfEra d' :=
  Nat.div_le_div_right (evened_mono h)

theorem yearOfEra_lt {d : Nat} (h : d < 146097) : yearOfEra d < 400 := by
  have hlast : yearOfEra 146096 = 399 := by decide
  have hle := yearOfEra_mono (Nat.le_of_lt_succ h)
  omega

/-- A year has begun on each of its days. -/
theorem yearStart_le {d : Nat} (h : d < 146097) : yearStart (yearOfEra d) ≤ d := by
  have hyear := yearOfEra_lt h
  have hdiv : 365 * yearOfEra d ≤ evened d := Nat.mul_div_le _ _
  by_contra hlate
  cases hprevious : yearOfEra d with
  | zero =>
    rw [hprevious] at hlate
    exact hlate (Nat.zero_le d)
  | succ year =>
    -- a day before the year is not after the last day of the year before
    rw [hprevious] at hlate hdiv hyear
    have hlast := (evened_yearStart year (by omega)).2
    have hbefore : evened d ≤ evened (yearStart (year + 1) - 1) := evened_mono (by omega)
    omega

theorem dayOfYear_le {d : Nat} (h : d < 146097) : d - yearStart (yearOfEra d) ≤ 365 := by
  have hyear := yearOfEra_lt h
  have hdiv : evened d < 365 * (yearOfEra d + 1) := Nat.lt_mul_div_succ _ (by decide)
  by_cases hlast : yearOfEra d = 399
  · have hstart : yearStart 399 = 145731 := by decide
    rw [hlast, hstart]
    omega
  · -- the next year of the era has not begun
    have hnext := (evened_yearStart (yearOfEra d + 1) (by omega)).1
    have hbefore : d < yearStart (yearOfEra d + 1) := by
      by_contra hlate
      have hafter := evened_mono (Nat.le_of_not_lt hlate)
      omega
    unfold yearStart at hbefore ⊢
    omega

/-! ## Dates from March -/

/-- The year that began with the last March, counted on through the eras. -/
def marchYear (days : Nat) : Nat :=
  yearOfEra ((days + 719468) % 146097) + 400 * ((days + 719468) / 146097)

/-- The days since the first of March. -/
def marchDay (days : Nat) : Nat :=
  (days + 719468) % 146097 - yearStart (yearOfEra ((days + 719468) % 146097))

/-- The month that a day of the year is in, from March on. -/
def marchMonth (dayOfYear : Nat) : Nat := (5 * dayOfYear + 2) / 153

/-- The day of its month. -/
def dayOfMonth (dayOfYear : Nat) : Nat :=
  dayOfYear - (153 * marchMonth dayOfYear + 2) / 5 + 1

theorem marchDay_le (days : Nat) : marchDay days ≤ 365 :=
  dayOfYear_le (Nat.mod_lt _ (by decide))

/-- A later day is in a later year from March, or later in the same one. -/
theorem march_lt {days days' : Nat} (h : days < days') :
    marchYear days < marchYear days' ∨
      marchYear days = marchYear days' ∧ marchDay days < marchDay days' := by
  have hdiv : (days + 719468) / 146097 ≤ (days' + 719468) / 146097 :=
    Nat.div_le_div_right (by omega)
  have hyear := yearOfEra_lt (Nat.mod_lt (days + 719468) (by decide : 0 < 146097))
  have hstart := yearStart_le (Nat.mod_lt (days + 719468) (by decide : 0 < 146097))
  unfold marchYear marchDay
  by_cases hera : (days + 719468) / 146097 = (days' + 719468) / 146097
  · -- within an era the years come one after another
    have hday : (days + 719468) % 146097 < (days' + 719468) % 146097 := by omega
    have hle := yearOfEra_mono (Nat.le_of_lt hday)
    by_cases heq : yearOfEra ((days + 719468) % 146097) =
        yearOfEra ((days' + 719468) % 146097)
    · right
      rw [heq] at hstart ⊢
      rw [hera]
      exact ⟨rfl, by omega⟩
    · left
      omega
  · left
    omega

/-- A date is found from the year, the month and the day counted from March. -/
theorem ofDays_eq (days : Nat) :
    ofDays days =
      { year := marchYear days + if 10 ≤ marchMonth (marchDay days) then 1 else 0
        month := if marchMonth (marchDay days) < 10 then marchMonth (marchDay days) + 3
          else marchMonth (marchDay days) - 9
        day := dayOfMonth (marchDay days) } := by
  have hmonth : marchMonth (marchDay days) < 12 := by
    have hday := marchDay_le days
    unfold marchMonth
    omega
  have hturn : (if (if marchMonth (marchDay days) < 10 then marchMonth (marchDay days) + 3
        else marchMonth (marchDay days) - 9) ≤ 2 then 1 else 0) =
      if 10 ≤ marchMonth (marchDay days) then 1 else 0 := by
    split <;> split <;> split <;> omega
  rw [← hturn]
  rfl

/-- Months have two digits, and so have days. -/
theorem ofDays_bounds (days : Nat) : (ofDays days).month ≤ 12 ∧ (ofDays days).day ≤ 31 := by
  have hday := marchDay_le days
  rw [ofDays_eq]
  dsimp only
  unfold dayOfMonth marchMonth
  constructor
  · split <;> omega
  · omega

/-! ## Dates -/

/-- The numbers of a date, the greatest unit first. -/
def numbers (d : CalendarDay) : List Nat := [d.year, d.month, d.day]

/-- **A later day has a later date.** -/
theorem numbers_ofDays_lt {days days' : Nat} (h : days < days') :
    (ofDays days).numbers < (ofDays days').numbers := by
  have hday := marchDay_le days
  have hday' := marchDay_le days'
  rw [ofDays_eq, ofDays_eq]
  simp only [numbers, List.cons_lt_cons_iff]
  obtain hyear | ⟨hyear, hlater⟩ := march_lt h
  · -- the later year may begin in the calendar year in which the earlier one ends
    unfold dayOfMonth marchMonth
    split <;> split <;> split <;> split <;> omega
  · unfold dayOfMonth marchMonth
    split <;> split <;> split <;> split <;> omega

end CalendarDay

end Coordination
