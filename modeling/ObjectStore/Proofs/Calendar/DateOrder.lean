import ObjectStore.Proofs.Calendar.Civil

/-!
This module proves that the days of the calendar are numbered in the order of their dates: by year, then by
month, then by the day of the month. The months are counted through all years, from a March on.
-/

namespace ObjectStore

namespace Civil

/-- The order of dates. -/
def compareDates (a b : Civil) : Ordering :=
  (compare a.year b.year).then ((compare a.month b.month).then (compare a.day b.day))

/-- The months from March of the year 0 to the month of a date. -/
def monthIndex (c : Civil) : Int :=
  c.year * 12 + c.month - 3

/-- The days from the first of March of the year 0 to the first of a month. -/
def daysBefore (index : Int) : Int :=
  let year := index / 12
  year * 365 + year / 4 - year / 100 + year / 400 + ((153 * (index % 12).toNat + 2) / 5 : Nat)

theorem dayNumber_eq {c : Civil} (h : c.Valid)
    : c.dayNumber = daysBefore c.monthIndex + c.day - 1 - epochShift := by
  obtain ⟨hfirst, hlast, hday, -⟩ := h
  unfold dayNumber daysBefore monthIndex
  dsimp only
  split
  . next hwinter =>
    have hyear : (c.year * 12 + c.month - 3) / 12 = c.year - 1 := by omega
    have hmonth : ((c.year * 12 + c.month - 3) % 12).toNat = c.month + 9 := by omega
    rw [hyear, hmonth]
    omega
  . next hspring =>
    have hyear : (c.year * 12 + c.month - 3) / 12 = c.year := by omega
    have hmonth : ((c.year * 12 + c.month - 3) % 12).toNat = c.month - 3 := by omega
    rw [hyear, hmonth]
    omega

theorem monthLength_february (year : Int)
    : (monthLength year 2 : Int)
        =
      28 + (year / 4 - (year - 1) / 4) - (year / 100 - (year - 1) / 100)
        + (year / 400 - (year - 1) / 400) := by
  unfold monthLength
  rw [if_pos rfl]
  split
  . next hleap =>
    simp only [isLeapYear, Bool.and_eq_true, Bool.or_eq_true, bne_iff_ne, beq_iff_eq, ne_eq] at hleap
    omega
  . next hcommon =>
    simp only [isLeapYear, Bool.and_eq_true, Bool.or_eq_true, bne_iff_ne, beq_iff_eq, ne_eq] at hcommon
    omega

/-- A month has as many days as there are from its first to the first of the next month. -/
theorem daysBefore_succ {c : Civil} (h : c.Valid)
    : daysBefore (c.monthIndex + 1) = daysBefore c.monthIndex + monthLength c.year c.month := by
  obtain ⟨hfirst, hlast, -, -⟩ := h
  obtain ⟨year, month, day⟩ := c
  unfold daysBefore monthIndex
  dsimp only at hfirst hlast ⊢
  obtain rfl | rfl | hspring : month = 1 ∨ month = 2 ∨ 3 ≤ month := by omega
  . rw [monthLength_of_ne (by decide)]
    simp only [Nat.reduceEqDiff, or_false, if_false]
    omega
  . rw [monthLength_february]
    omega
  . obtain ⟨spring, rfl⟩ := Nat.exists_eq_add_of_le' hspring
    have hyear : (year * 12 + (spring + 3 : Nat) - 3) / 12 = year := by omega
    have hnext : (year * 12 + (spring + 3 : Nat) - 3 + 1) / 12 = year := by omega
    have hmonth : ((year * 12 + (spring + 3 : Nat) - 3) % 12).toNat = spring := by omega
    have hnextMonth : ((year * 12 + (spring + 3 : Nat) - 3 + 1) % 12).toNat = spring + 1 := by omega
    rw [hyear, hnext, hmonth, hnextMonth, monthLength_afterMarch year (by omega)]
    omega

theorem daysBefore_le_succ (index : Int) : daysBefore index ≤ daysBefore (index + 1) := by
  unfold daysBefore
  dsimp only
  obtain hyear | hyear : (index + 1) / 12 = index / 12 ∨ (index + 1) / 12 = index / 12 + 1 := by omega
  . rw [hyear]
    omega
  . rw [hyear]
    omega

theorem daysBefore_mono {index index' : Int} (h : index ≤ index')
    : daysBefore index ≤ daysBefore index' := by
  obtain ⟨count, rfl⟩ := Int.le.dest h
  clear h
  induction count with
  | zero => simp
  | succ count ih =>
    have hnext := daysBefore_le_succ (index + count)
    rw [Int.natCast_add, Int.natCast_one, ← Int.add_assoc]
    exact Int.le_trans ih hnext

variable {a b : Civil}

theorem dayNumber_lt_of_month (ha : a.Valid) (hb : b.Valid) (h : a.monthIndex < b.monthIndex)
    : a.dayNumber < b.dayNumber := by
  have hlast := ha.2.2.2
  have hfirst := hb.2.2.1
  have hnext : daysBefore (a.monthIndex + 1) ≤ daysBefore b.monthIndex := daysBefore_mono h
  rw [daysBefore_succ ha] at hnext
  rw [dayNumber_eq ha, dayNumber_eq hb]
  omega

theorem compare_of_sub_eq {x y : Int} {m n : Nat} (h : x - y = m - n) : compare x y = compare m n := by
  rw [Int.compare_eq_ite_lt, Nat.compare_eq_ite_lt]
  grind

theorem compareDates_eq (ha : a.Valid) (hb : b.Valid)
    : a.compareDates b = (compare a.monthIndex b.monthIndex).then (compare a.day b.day) := by
  obtain ⟨hfirst, hlast, -, -⟩ := ha
  obtain ⟨hfirst', hlast', -, -⟩ := hb
  unfold compareDates monthIndex
  obtain hyear | hyear | hyear := Int.lt_trichotomy a.year b.year
  . rw [Int.compare_eq_lt.mpr hyear, Int.compare_eq_lt.mpr (by omega)]
    rfl
  . rw [Int.compare_eq_eq.mpr hyear, Ordering.eq_then, compare_of_sub_eq (m := a.month) (n := b.month)]
    omega
  . rw [Int.compare_eq_gt.mpr hyear, Int.compare_eq_gt.mpr (by omega)]
    rfl

/-- The order of the days is the order of their dates. -/
theorem compare_dayNumber (ha : a.Valid) (hb : b.Valid)
    : compare a.dayNumber b.dayNumber = a.compareDates b := by
  rw [compareDates_eq ha hb]
  obtain hmonth | hmonth | hmonth := Int.lt_trichotomy a.monthIndex b.monthIndex
  . rw [Int.compare_eq_lt.mpr hmonth, Int.compare_eq_lt.mpr (dayNumber_lt_of_month ha hb hmonth)]
    rfl
  . rw [Int.compare_eq_eq.mpr hmonth, Ordering.eq_then]
    apply compare_of_sub_eq
    rw [dayNumber_eq ha, dayNumber_eq hb, hmonth]
    omega
  . rw [Int.compare_eq_gt.mpr hmonth, Int.compare_eq_gt.mpr (dayNumber_lt_of_month hb ha hmonth)]
    rfl

end Civil

end ObjectStore
