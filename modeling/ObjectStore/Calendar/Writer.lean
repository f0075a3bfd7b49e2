import ObjectStore.Calendar.Timestamp
import ObjectStore.Decimal.Digits

/-!
This module writes days and points in time.
-/

namespace ObjectStore

open Decimal

/-- Four digits for the years from 0 to 9999. All others have a sign, and four digits or more. -/
def yearText (year : Int) : List Char :=
  if 0 ≤ year ∧ year ≤ 9999 then
    padded 4 year.toNat
  else
    (if year < 0 then '-' else '+') :: padded 4 year.natAbs

def Day.chars (d : Day) : List Char :=
  let c := d.civil
  yearText c.year ++ '-' :: padded 2 c.month ++ '-' :: padded 2 c.day

def Day.text (d : Day) : String :=
  String.ofList d.chars

/-- A point and the digits of a fraction in thousandths, millionths or billionths, whichever is
the first to hold it. -/
def fractionText (nano : Nat) : List Char :=
  if nano = 0 then []
  else if nano % 1000000 = 0 then '.' :: padded 3 (nano / 1000000)
  else if nano % 1000 = 0 then '.' :: padded 6 (nano / 1000)
  else '.' :: padded 9 nano

/-- The day, `T`, the time of the day, and `Z`. A leap second is second 60. -/
def Timestamp.chars (t : Timestamp) : List Char :=
  let second := t.second % 60 + t.nano / 1000000000
  t.day.chars ++ 'T' :: padded 2 (t.second / 3600) ++
    ':' :: padded 2 (t.second / 60 % 60) ++ ':' :: padded 2 second ++
    fractionText (t.nano % 1000000000) ++ ['Z']

def Timestamp.text (t : Timestamp) : String :=
  String.ofList t.chars

end ObjectStore
