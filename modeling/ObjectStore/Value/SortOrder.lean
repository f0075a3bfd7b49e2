import ObjectStore.Value.Order

/-!
This module contains the order in which results are sorted. It orders all pairs of values, and follows
the comparison of filters where that one orders a pair.
-/

namespace ObjectStore.Value

def sortRank : Value → Nat
  | null => 0
  | int _ | float _ => 1
  | bool _ => 2
  | string _ => 3
  | day _ | timestamp _ => 4
  | array _ => 5
  | json _ => 6

/-- The order of two values that are not arrays. A day comes before the timestamps on it. Numbers
without an order are put into the total order of floats, and documents are ordered by their text. -/
def sortCompareScalars (a b : Value) : Ordering :=
  match a, b with
  | bool x, bool y => compare x.toNat y.toNat
  | day c, day d => compare c.number d.number
  | day d, timestamp t => (compare d.number t.day.number).then .lt
  | timestamp t, day d => (compare t.day.number d.number).then .gt
  | json x, json y => compare x.text y.text
  | a, b =>
    if a.sortRank ≠ b.sortRank then
      compare a.sortRank b.sortRank
    else
      match compare? a b with
      | some o => o
      | none =>
        match a.float?, b.float? with
        | some x, some y => x.totalCompare y
        | _, _ => .eq

mutual

def sortCompare : Value → Value → Ordering
  | array xs, array ys => sortCompareItems xs ys
  | a, b => sortCompareScalars a b

/-- The order of the first items that differ. A list comes before the lists that it begins. -/
def sortCompareItems : List Value → List Value → Ordering
  | [], [] => .eq
  | [], _ :: _ => .lt
  | _ :: _, [] => .gt
  | x :: xs, y :: ys => (sortCompare x y).then (sortCompareItems xs ys)

end

end ObjectStore.Value
