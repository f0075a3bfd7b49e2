/-!
This module contains the Gregorian calendar, extended to all years: a date by year, month and day of
the month, and the number of days between it and the first of January 1970.
-/

namespace ObjectStore

structure Civil where
  year : Int
  month : Nat
  day : Nat
deriving DecidableEq, Repr

namespace Civil

def isLeapYear (year : Int) : Bool :=
  year % 4 == 0 && (year % 100 != 0 || year % 400 == 0)

def monthLength (year : Int) (month : Nat) : Nat :=
  if month = 2 then (if isLeapYear year then 29 else 28)
  else if month = 4 ∨ month = 6 ∨ month = 9 ∨ month = 11 then 30
  else 31

def Valid (c : Civil) : Prop :=
  1 ≤ c.month ∧ c.month ≤ 12 ∧ 1 ≤ c.day ∧ c.day ≤ monthLength c.year c.month

instance (c : Civil) : Decidable c.Valid := by
  unfold Valid
  infer_instance

/-- The days from the first of March of the year 0 to the first of January 1970. -/
def epochShift : Int := 719468

/-- The days from the first of January 1970 to a date. Years are counted from March on, so that
the leap day is the last one of a year. -/
def dayNumber (c : Civil) : Int :=
  let year := if c.month ≤ 2 then c.year - 1 else c.year
  let yearOfEra := (year % 400).toNat
  let month := if c.month ≤ 2 then c.month + 9 else c.month - 3
  let dayOfYear := (153 * month + 2) / 5 + c.day - 1
  let dayOfEra := yearOfEra * 365 + yearOfEra / 4 - yearOfEra / 100 + dayOfYear
  year / 400 * 146097 + dayOfEra - epochShift

def ofDayNumber (n : Int) : Civil :=
  let dayOfEra := ((n + epochShift) % 146097).toNat
  let century := min (dayOfEra / 36524) 3
  let dayOfCentury := dayOfEra - century * 36524
  let fourYears := dayOfCentury / 1461
  let dayOfFour := dayOfCentury % 1461
  let oneYear := min (dayOfFour / 365) 3
  let dayOfYear := dayOfFour - oneYear * 365
  let month := (5 * dayOfYear + 2) / 153
  let day := dayOfYear - (153 * month + 2) / 5 + 1
  let year := (n + epochShift) / 146097 * 400 + (century * 100 + fourYears * 4 + oneYear : Nat)
  if month < 10 then ⟨year, month + 3, day⟩ else ⟨year + 1, month - 9, day⟩

end Civil

end ObjectStore
