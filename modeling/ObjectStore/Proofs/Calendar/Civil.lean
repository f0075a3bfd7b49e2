import ObjectStore.Calendar.Day

/-!
This module proves that the days of the calendar and their numbers belong together: the date that is
computed for a number exists, and has this number. Both sides count years from March on.
-/

namespace ObjectStore

namespace Civil

/-- The date of a day of a year that begins in March. -/
def ofMarch (year : Int) (dayOfYear : Nat) : Civil :=
  let month := (5 * dayOfYear + 2) / 153
  let day := dayOfYear - (153 * month + 2) / 5 + 1
  if month < 10 then ⟨year, month + 3, day⟩ else ⟨year + 1, month - 9, day⟩

/-- An era of 400 years, and what of it is over on a day: centuries, periods of four years, years and
days. -/
structure EraDay where
  era : Int
  century : Nat
  fourYears : Nat
  oneYear : Nat
  dayOfYear : Nat
  century_le : century ≤ 3
  fourYears_le : fourYears ≤ 24
  oneYear_le : oneYear ≤ 3
  dayOfYear_le : dayOfYear ≤ 365
  leapDay : dayOfYear = 365 → oneYear = 3 ∧ (fourYears = 24 → century = 3)

namespace EraDay

def yearOfEra (d : EraDay) : Nat :=
  d.century * 100 + d.fourYears * 4 + d.oneYear

def year (d : EraDay) : Int :=
  d.era * 400 + d.yearOfEra

def dayOfEra (d : EraDay) : Nat :=
  d.century * 36524 + d.fourYears * 1461 + d.oneYear * 365 + d.dayOfYear

theorem yearOfEra_lt (d : EraDay) : d.yearOfEra < 400 := by
  have hcentury := d.century_le
  have hfour := d.fourYears_le
  have hone := d.oneYear_le
  unfold yearOfEra
  omega

theorem dayOfEra_eq (d : EraDay)
    : d.yearOfEra * 365 + d.yearOfEra / 4 - d.yearOfEra / 100 + d.dayOfYear = d.dayOfEra := by
  have hfour := d.fourYears_le
  have hone := d.oneYear_le
  have hquarter : d.yearOfEra / 4 = d.century * 25 + d.fourYears := by
    unfold yearOfEra
    omega
  have hcentury : d.yearOfEra / 100 = d.century := by
    unfold yearOfEra
    omega
  rw [hquarter, hcentury]
  unfold yearOfEra dayOfEra
  omega

theorem isLeapYear_of_leapDay (d : EraDay) (h : d.dayOfYear = 365) : isLeapYear (d.year + 1) = true := by
  have hcentury := d.century_le
  have hfour := d.fourYears_le
  have hleap := d.leapDay h
  unfold isLeapYear year yearOfEra
  simp only [Bool.and_eq_true, Bool.or_eq_true, bne_iff_ne, beq_iff_eq, ne_eq]
  omega

end EraDay

theorem exists_eraDay (n : Int)
    : ∃ d : EraDay, ofDayNumber n = ofMarch d.year d.dayOfYear
        ∧ n + epochShift = d.era * 146097 + d.dayOfEra := by
  generalize hd : ((n + epochShift) % 146097).toNat = dayOfEra
  generalize hc : min (dayOfEra / 36524) 3 = century
  generalize hr : dayOfEra - century * 36524 = dayOfCentury
  generalize ho : min (dayOfCentury % 1461 / 365) 3 = oneYear
  have hlt : dayOfEra < 146097 := by omega
  have hdays : dayOfCentury ≤ 36524 := by omega
  have hlast : dayOfCentury = 36524 → century = 3 := by omega
  refine ⟨⟨(n + epochShift) / 146097, century, dayOfCentury / 1461, oneYear,
    dayOfCentury % 1461 - oneYear * 365, ?_, ?_, ?_, ?_, ?_⟩, ?_, ?_⟩
  . omega
  . omega
  . omega
  . omega
  . omega
  . unfold ofDayNumber
    simp only [hd, hc, hr, ho]
    rfl
  . simp only [EraDay.dayOfEra]
    omega

theorem month_of_dayOfYear {dayOfYear : Nat} (h : dayOfYear ≤ 365)
    : (5 * dayOfYear + 2) / 153 ≤ 11
        ∧ (153 * ((5 * dayOfYear + 2) / 153) + 2) / 5 ≤ dayOfYear := by
  omega

theorem dayNumber_ofMarch {year : Int} {dayOfYear : Nat} (h : dayOfYear ≤ 365)
    : (ofMarch year dayOfYear).dayNumber
        =
      year / 400 * 146097 + (((year % 400).toNat * 365 + (year % 400).toNat / 4
        - (year % 400).toNat / 100 + dayOfYear : Nat) : Int) - epochShift := by
  obtain ⟨hmonth, hday⟩ := month_of_dayOfYear h
  unfold ofMarch
  generalize (5 * dayOfYear + 2) / 153 = month at *
  dsimp only
  split
  . unfold dayNumber
    dsimp only
    rw [if_neg (by omega), if_neg (by omega), Nat.add_sub_cancel]
    omega
  . unfold dayNumber
    dsimp only
    rw [if_pos (by omega), if_pos (by omega), Nat.sub_add_cancel (by omega), Int.add_sub_cancel]
    omega

@[simp]
theorem dayNumber_ofDayNumber (n : Int) : (ofDayNumber n).dayNumber = n := by
  obtain ⟨d, hdate, hnumber⟩ := exists_eraDay n
  have hlt := d.yearOfEra_lt
  have hera : d.year / 400 = d.era := by
    unfold EraDay.year
    omega
  have hyear : (d.year % 400).toNat = d.yearOfEra := by
    unfold EraDay.year
    omega
  rw [hdate, dayNumber_ofMarch d.dayOfYear_le, hera, hyear, d.dayOfEra_eq]
  omega

theorem monthLength_of_ne {year : Int} {month : Nat} (h : month ≠ 2)
    : monthLength year month
        =
      if month = 4 ∨ month = 6 ∨ month = 9 ∨ month = 11 then 30 else 31 := by
  unfold monthLength
  rw [if_neg h]

theorem monthLength_le (year : Int) (month : Nat) : monthLength year month ≤ 31 := by
  unfold monthLength
  split
  . split <;> omega
  . split <;> omega

theorem monthLength_afterMarch (year : Int) {month : Nat} (h : month < 10)
    : monthLength year (month + 3) = (153 * (month + 1) + 2) / 5 - (153 * month + 2) / 5 := by
  have hall : ∀ month < 10,
      (if month + 3 = 4 ∨ month + 3 = 6 ∨ month + 3 = 9 ∨ month + 3 = 11 then 30 else 31)
        = (153 * (month + 1) + 2) / 5 - (153 * month + 2) / 5 := by
    decide
  rw [monthLength_of_ne (by omega), hall month h]

theorem valid_ofMarch {year : Int} {dayOfYear : Nat} (h : dayOfYear ≤ 365)
    (hleap : dayOfYear = 365 → isLeapYear (year + 1) = true) : (ofMarch year dayOfYear).Valid := by
  obtain ⟨hmonth, hday⟩ := month_of_dayOfYear h
  have hnext : dayOfYear < (153 * ((5 * dayOfYear + 2) / 153 + 1) + 2) / 5 := by omega
  unfold ofMarch Valid
  generalize (5 * dayOfYear + 2) / 153 = month at *
  dsimp only
  split
  . next hspring =>
    dsimp only
    rw [monthLength_afterMarch year hspring]
    omega
  . next hwinter =>
    dsimp only
    obtain rfl | rfl : month = 10 ∨ month = 11 := by omega
    . rw [monthLength_of_ne (by decide)]
      simp only [Nat.reduceSub, Nat.reduceEqDiff, or_false, if_false]
      omega
    . unfold monthLength
      simp only [Nat.reduceSub, if_true]
      split
      . omega
      . next hcommon =>
        have hshort : dayOfYear ≠ 365 := fun heq => hcommon (hleap heq)
        omega

theorem valid_ofDayNumber (n : Int) : (ofDayNumber n).Valid := by
  obtain ⟨d, hdate, -⟩ := exists_eraDay n
  rw [hdate]
  exact valid_ofMarch d.dayOfYear_le d.isLeapYear_of_leapDay

end Civil

theorem Day.number_inj {c d : Day} : c.number = d.number ↔ c = d := by
  cases c
  cases d
  simp

theorem Day.ofNumber?_eq_some_iff {n : Int} {d : Day} : ofNumber? n = some d ↔ d.number = n := by
  constructor
  . intro h
    unfold ofNumber? at h
    split at h
    . cases h
      rfl
    . cases h
  . rintro rfl
    exact ofNumber?_number d

@[simp]
theorem Day.ofCivil?_civil (d : Day) : ofCivil? d.civil = some d := by
  unfold ofCivil? civil
  rw [if_pos (Civil.valid_ofDayNumber d.number), Civil.dayNumber_ofDayNumber, ofNumber?_number]

-- The date is named, so that its fields are not computed.
theorem Day.ofCivil?_of_eq {d : Day} {c : Civil} (h : d.civil = c)
    : ofCivil? ⟨c.year, c.month, c.day⟩ = some d := by
  have hcivil := ofCivil?_civil d
  rw [h] at hcivil
  exact hcivil

end ObjectStore
