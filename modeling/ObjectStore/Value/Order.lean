import ObjectStore.Calendar.Reader
import ObjectStore.Text.Lower
import ObjectStore.Value.Basic

/-!
This module contains the comparison of values that filters use. It leaves some pairs of values
without an order; equality then has weaker rules to fall back on.
-/

namespace ObjectStore.Value

/-- The order of two numbers. Two integers are compared exactly, and any other pair as floats. -/
def compareNumbers? (a b : Value) : Option Ordering :=
  match a, b with
  | int i, int j => some (compare i.toInt j.toInt)
  | _, _ =>
    match a.float?, b.float? with
    | some x, some y => x.compare? y
    | _, _ => none

def day? : Value → Option Day
  | day d => some d
  | timestamp t => some t.day
  | string s => Day.read? s
  | _ => none

def compareDays? (a b : Value) : Option Ordering :=
  match a.day?, b.day? with
  | some c, some d => some (compare c.number d.number)
  | _, _ => none

mutual

/-- The order of two values, if they have one. Null comes first. Numbers are compared by size,
strings without regard to case, and timestamps by whole seconds. A day is compared with the day that
the other value has. Arrays of one length are compared item by item. -/
def compare? : Value → Value → Option Ordering
  | null, null => some .eq
  | null, _ => some .lt
  | _, null => some .gt
  | int i, int j => compareNumbers? (int i) (int j)
  | int i, float y => compareNumbers? (int i) (float y)
  | float x, int j => compareNumbers? (float x) (int j)
  | float x, float y => compareNumbers? (float x) (float y)
  | string s, string t => some (compare (Text.lowercase s) (Text.lowercase t))
  | timestamp t, timestamp u => some (compare t.epochSeconds u.epochSeconds)
  | day d, b => compareDays? (day d) b
  | a, day d => compareDays? a (day d)
  | array xs, array ys => if xs.length = ys.length then compareItems? xs ys else none
  | _, _ => none

def compareItems? : List Value → List Value → Option Ordering
  | x :: xs, y :: ys =>
    match compare? x y with
    | some .eq => compareItems? xs ys
    | other => other
  | _, _ => some .eq

end

/-- Equality of values that have no order: a number equals a string that reads as it, a truth value
equals 0 or 1, and documents are compared with the document of the other value. -/
def looseEq : Value → Value → Bool
  | string s, int i => readsAs s (int i)
  | string s, float x => readsAs s (float x)
  | int i, string s => readsAs s (int i)
  | float x, string s => readsAs s (float x)
  | bool b, int i => flagEq b (int i)
  | bool b, float x => flagEq b (float x)
  | int i, bool b => flagEq b (int i)
  | float x, bool b => flagEq b (float x)
  | json a, b => a.same b.toJson
  | a, json b => a.toJson.same b
  | a, b => a.same b
where
  readsAs (s : String) (n : Value) : Bool :=
    match Binary64.read? (Text.trim s.toList), n.float? with
    | some x, some y => x.same y
    | _, _ => false
  flagEq (b : Bool) (n : Value) : Bool :=
    n.float?.any fun x => x.same (Binary64.ofInt (if b then 1 else 0))

def matchesValue (a b : Value) : Bool :=
  match compare? a b with
  | some o => o == .eq
  | none => looseEq a b

end ObjectStore.Value
