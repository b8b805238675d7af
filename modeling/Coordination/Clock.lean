/-!
# Timestamps

A clock that issues the time of day in milliseconds, but never the same millisecond twice and never
an earlier one than before.  A stamp is the time in universal time as text of fixed width, so stamps
sort as texts in the order in which they were issued.
-/

namespace Coordination

structure CalendarDay where
  year : Nat
  month : Nat
  day : Nat
deriving DecidableEq, Repr

namespace CalendarDay

/-- The day a number of days after the first of January 1970.  Years are counted from March, so
that the leap day is the last of its year, in eras of four hundred years. -/
def ofDays (days : Nat) : CalendarDay :=
  let shifted := days + 719468
  let era := shifted / 146097
  let dayOfEra := shifted % 146097
  let yearOfEra := (dayOfEra - dayOfEra / 1460 + dayOfEra / 36524 - dayOfEra / 146096) / 365
  let dayOfYear := dayOfEra - (365 * yearOfEra + yearOfEra / 4 - yearOfEra / 100)
  let monthFromMarch := (5 * dayOfYear + 2) / 153
  let month := if monthFromMarch < 10 then monthFromMarch + 3 else monthFromMarch - 9
  { year := yearOfEra + 400 * era + (if month ≤ 2 then 1 else 0)
    month
    day := dayOfYear - (153 * monthFromMarch + 2) / 5 + 1 }

end CalendarDay

/-- The last `width` decimal digits of a number. -/
def fixedDigits : Nat → Nat → List Char
  | 0, _ => []
  | width + 1, n => fixedDigits width (n / 10) ++ [Char.ofNat (48 + n % 10)]

/-- A year: four digits, or a sign and all digits where four do not suffice. -/
def yearChars (year : Nat) : List Char :=
  if year ≤ 9999 then fixedDigits 4 year else '+' :: Nat.toDigits 10 year

/-- The stamp of a number of milliseconds since the start of 1970. -/
def stampChars (millis : Nat) : List Char :=
  let seconds := millis / 1000
  let day := CalendarDay.ofDays (seconds / 86400)
  yearChars day.year ++ '-' :: fixedDigits 2 day.month ++ '-' :: fixedDigits 2 day.day ++
    'T' :: fixedDigits 2 (seconds / 3600 % 24) ++ ':' :: fixedDigits 2 (seconds / 60 % 60) ++
    ':' :: fixedDigits 2 (seconds % 60) ++ '.' :: fixedDigits 3 (millis % 1000) ++ ['Z']

structure Clock where
  /-- The millisecond that was issued last; none of 1970's first is ever issued. -/
  last : Nat := 0
deriving DecidableEq, Repr

namespace Clock

/-- The millisecond that is issued at the time `now`. -/
def issue (c : Clock) (now : Nat) : Nat := max now (c.last + 1)

/-- The clock after an issue at the time `now`. -/
def advance (c : Clock) (now : Nat) : Clock := ⟨c.issue now⟩

/-- The stamp that is issued at the time `now`. -/
def stamp (c : Clock) (now : Nat) : String := String.ofList (stampChars (c.issue now))

/-- The stamps that are issued at the given times, one after another. -/
def stamps : Clock → List Nat → List String
  | _, [] => []
  | c, now :: later => c.stamp now :: stamps (c.advance now) later

end Clock

end Coordination
