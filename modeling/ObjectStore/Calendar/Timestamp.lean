import ObjectStore.Calendar.Day

/-!
This module contains points in time: a day, a second of that day and a fraction of the second. The
time scale is UTC. A leap second is the second before it with a fraction of one second or more, and
only the last second of a minute has one after it.
-/

namespace ObjectStore

structure Timestamp where
  day : Day
  second : Nat
  nano : Nat
  second_lt : second < 86400
  nano_lt : nano < 2000000000
  leap : 1000000000 ≤ nano → second % 60 = 59
deriving DecidableEq, Repr

namespace Timestamp

def epochSeconds (t : Timestamp) : Int :=
  t.day.number * 86400 + t.second

def startOf (d : Day) : Timestamp :=
  ⟨d, 0, 0, by decide, by decide, by decide⟩

def ofEpochSeconds? (seconds : Int) (nano : Nat) : Option Timestamp :=
  if h : nano < 2000000000 ∧ (1000000000 ≤ nano → seconds % 60 = 59) then
    (Day.ofNumber? (seconds / 86400)).map fun day =>
      ⟨day, (seconds % 86400).toNat, nano, by omega, h.1, by omega⟩
  else
    none

@[simp]
theorem epochSeconds_startOf (d : Day) : (startOf d).epochSeconds = d.number * 86400 := by
  simp [startOf, epochSeconds]

end Timestamp

/-- A point in time as it is written with an offset from UTC: the day and the time of the day
there, and the seconds by which that place is ahead. -/
structure LocalTime where
  day : Day
  second : Nat
  nano : Nat
  offset : Int
deriving DecidableEq, Repr

def LocalTime.utc? (t : LocalTime) : Option Timestamp :=
  Timestamp.ofEpochSeconds? (t.day.number * 86400 + t.second - t.offset) t.nano

end ObjectStore
