import ObjectStore.Calendar.Civil

/-!
This module contains calendar days, the days of the years from -262143 to 262142, by their distance
from the first of January 1970.
-/

namespace ObjectStore

structure Day where
  number : Int
  first_le : -96465292 ≤ number
  le_last : number ≤ 95026236
deriving DecidableEq, Repr

namespace Day

def ofNumber? (n : Int) : Option Day :=
  if h : -96465292 ≤ n ∧ n ≤ 95026236 then some ⟨n, h.1, h.2⟩ else none

def ofCivil? (c : Civil) : Option Day :=
  if c.Valid then ofNumber? c.dayNumber else none

def civil (d : Day) : Civil :=
  Civil.ofDayNumber d.number

instance : Inhabited Day := ⟨0, by decide, by decide⟩

instance : Ord Day := ⟨fun a b => compare a.number b.number⟩

@[simp]
theorem ofNumber?_number (d : Day) : ofNumber? d.number = some d := by
  simp [ofNumber?, d.first_le, d.le_last]

end Day

end ObjectStore
