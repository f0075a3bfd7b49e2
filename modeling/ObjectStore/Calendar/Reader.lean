import ObjectStore.Calendar.Timestamp
import ObjectStore.Decimal.Digits
import ObjectStore.Text.Basic

/-!
This module reads days and points in time. A day is written as year, month and day of the month, or
as a point in time, of which the day on the writer's own clock counts. A point in time has the strict
form of RFC 3339.
-/

namespace ObjectStore

open Decimal

def takeNumber? (most : Nat) (cs : List Char) : Option (Nat × List Char) :=
  let ds := (cs.takeWhile Char.isDigit).take most
  if ds.isEmpty then none else some (ofDigits ds, cs.drop ds.length)

def takeDigits? (count : Nat) (cs : List Char) : Option (Nat × List Char) :=
  let ds := cs.take count
  if ds.length = count ∧ ds.all Char.isDigit = true then
    some (ofDigits ds, cs.drop count)
  else
    none

def takeChar? (c : Char) : List Char → Option (List Char)
  | d :: cs => if d = c then some cs else none
  | [] => none

/-- Takes a year: up to four digits, or any number of them behind a sign. Blanks may stand in
front. -/
def takeYear? (cs : List Char) : Option (Int × List Char) :=
  match Text.trimStart cs with
  | '-' :: cs => (takeNumber? cs.length cs).map fun (n, rest) => (-(n : Int), rest)
  | '+' :: cs => (takeNumber? cs.length cs).map fun (n, rest) => ((n : Int), rest)
  | cs => (takeNumber? 4 cs).map fun (n, rest) => ((n : Int), rest)

/-- Takes a month or a day of the month: one digit or two. Blanks may stand in front. -/
def takeShort? (cs : List Char) : Option (Nat × List Char) :=
  takeNumber? 2 (Text.trimStart cs)

def Day.readCivil? (cs : List Char) : Option Day := do
  let (year, cs) ← takeYear? cs
  let cs ← takeChar? '-' cs
  let (month, cs) ← takeShort? cs
  let cs ← takeChar? '-' cs
  let (day, cs) ← takeShort? cs
  if cs.isEmpty then Day.ofCivil? ⟨year, month, day⟩ else none

/-- Takes a fraction of a second, if there is one, in billionths. Digits after the ninth do not
count. -/
def takeFraction? : List Char → Option (Nat × List Char)
  | '.' :: cs =>
    let ds := cs.takeWhile Char.isDigit
    let first := ds.take 9
    if ds.isEmpty then none
    else some (ofDigits first * Nat.pow 10 (9 - first.length), cs.drop ds.length)
  | cs => some (0, cs)

def takeOffset? : List Char → Option (Int × List Char)
  | 'Z' :: cs => some (0, cs)
  | 'z' :: cs => some (0, cs)
  | '+' :: cs => distance? 1 cs
  | '-' :: cs => distance? (-1) cs
  | '−' :: cs => distance? (-1) cs
  | _ => none
where
  distance? (sign : Int) (cs : List Char) : Option (Int × List Char) := do
    let (hours, cs) ← takeDigits? 2 cs
    let cs ← takeChar? ':' cs
    let (minutes, cs) ← takeDigits? 2 cs
    if hours < 24 ∧ minutes < 60 then
      some (sign * (hours * 3600 + minutes * 60 : Nat), cs)
    else
      none

/-- Takes the time of a day: its second and the fraction. Second 60 is a leap second. -/
def takeTimeOfDay? (cs : List Char) : Option ((Nat × Nat) × List Char) := do
  let (hour, cs) ← takeDigits? 2 cs
  let cs ← takeChar? ':' cs
  let (minute, cs) ← takeDigits? 2 cs
  let cs ← takeChar? ':' cs
  let (second, cs) ← takeDigits? 2 cs
  let (nano, cs) ← takeFraction? cs
  if hour < 24 ∧ minute < 60 ∧ second ≤ 60 then
    if second = 60 then
      some ((hour * 3600 + minute * 60 + 59, 1000000000 + nano), cs)
    else
      some ((hour * 3600 + minute * 60 + second, nano), cs)
  else
    none

def LocalTime.read? (cs : List Char) : Option LocalTime := do
  let (year, cs) ← takeDigits? 4 cs
  let cs ← takeChar? '-' cs
  let (month, cs) ← takeDigits? 2 cs
  let cs ← takeChar? '-' cs
  let (dayOfMonth, cs) ← takeDigits? 2 cs
  let cs ← takeChar? 'T' cs <|> takeChar? 't' cs <|> takeChar? ' ' cs
  let ((second, nano), cs) ← takeTimeOfDay? cs
  let (offset, cs) ← takeOffset? cs
  let day ← Day.ofCivil? ⟨year, month, dayOfMonth⟩
  if cs.isEmpty then some ⟨day, second, nano, offset⟩ else none

def Timestamp.read? (s : String) : Option Timestamp :=
  (LocalTime.read? (Text.trim s.toList)).bind LocalTime.utc?

def Day.read? (s : String) : Option Day :=
  let cs := Text.trim s.toList
  Day.readCivil? cs <|> (LocalTime.read? cs).map (·.day)

end ObjectStore
