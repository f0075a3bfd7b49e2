/-!
This module contains the floating point numbers of 64 bits. A number is given by its sign and its
magnitude: the magnitudes of the numbers that are not negative count upward from zero in the order
of the numbers, up to infinity, and the magnitudes above infinity are no numbers.
-/

namespace ObjectStore

structure Binary64 where
  negative : Bool
  magnitude : Nat
  magnitude_lt : magnitude < 0x8000000000000000
deriving DecidableEq, Repr

namespace Binary64

def infinity : Nat := 0x7FF0000000000000

def ofMagnitude (negative : Bool) (magnitude : Nat) : Binary64 :=
  ⟨negative, min magnitude infinity, Nat.lt_of_le_of_lt (Nat.min_le_right ..) (by decide)⟩

def zero (negative : Bool) : Binary64 := ofMagnitude negative 0

def inf (negative : Bool) : Binary64 := ofMagnitude negative infinity

def nan (negative : Bool) : Binary64 := ⟨negative, 0x7FF8000000000000, by decide⟩

instance : Inhabited Binary64 := ⟨zero false⟩

def isNaN (x : Binary64) : Bool := infinity < x.magnitude

def isFinite (x : Binary64) : Bool := x.magnitude < infinity

/-- The place of a number on the line of all numbers. Both zeros have the same place. -/
def place (x : Binary64) : Int :=
  if x.negative then -(x.magnitude : Int) else x.magnitude

/-- The numeric order. What is no number has no place in it. -/
def compare? (x y : Binary64) : Option Ordering :=
  if x.isNaN || y.isNaN then none else some (compare x.place y.place)

def same (x y : Binary64) : Bool :=
  x.compare? y == some .eq

def totalCompare (x y : Binary64) : Ordering :=
  compare (totalPlace x) (totalPlace y)
where
  totalPlace (x : Binary64) : Int :=
    if x.negative then -(x.magnitude : Int) - 1 else x.magnitude

/-- The bit in front of the 52 bits of the fraction. -/
def hiddenBit : Nat := 0x10000000000000

def significand (x : Binary64) : Nat :=
  if x.magnitude / hiddenBit = 0 then
    x.magnitude % hiddenBit
  else
    hiddenBit + x.magnitude % hiddenBit

def exponent (x : Binary64) : Int :=
  if x.magnitude / hiddenBit = 0 then -1074 else (x.magnitude / hiddenBit : Nat) - 1075

def toInt? (x : Binary64) : Option Int :=
  if !x.isFinite then
    none
  else if 0 ≤ x.exponent then
    some (signed (x.significand * Nat.pow 2 x.exponent.toNat))
  else if x.significand % Nat.pow 2 (-x.exponent).toNat = 0 then
    some (signed (x.significand / Nat.pow 2 (-x.exponent).toNat))
  else
    none
where
  signed (n : Nat) : Int := if x.negative then -(n : Int) else n

theorem compare?_eq_none_iff {x y : Binary64}
    : x.compare? y = none ↔ x.isNaN = true ∨ y.isNaN = true := by
  unfold compare?
  split <;> simp_all

theorem compare?_self {x : Binary64} (h : x.isNaN = false) : x.compare? x = some .eq := by
  simp [compare?, h]

theorem same_iff {x y : Binary64}
    : x.same y = true ↔ x.isNaN = false ∧ y.isNaN = false ∧ x.place = y.place := by
  unfold same compare?
  cases x.isNaN <;> cases y.isNaN <;> simp

theorem compare?_swap (x y : Binary64) : x.compare? y = (y.compare? x).map Ordering.swap := by
  unfold compare?
  rw [Bool.or_comm]
  split
  . rfl
  . exact congrArg some Std.OrientedOrd.eq_swap

theorem same_self (x : Binary64) : x.same x = !x.isNaN := by
  unfold same compare?
  cases x.isNaN <;> simp

theorem same_comm (x y : Binary64) : x.same y = y.same x := by
  rw [Bool.eq_iff_iff, same_iff, same_iff]
  constructor
  . rintro ⟨hx, hy, hplace⟩
    exact ⟨hy, hx, hplace.symm⟩
  . rintro ⟨hy, hx, hplace⟩
    exact ⟨hx, hy, hplace.symm⟩

theorem isNaN_eq_false_of_isFinite {x : Binary64} (h : x.isFinite = true) : x.isNaN = false := by
  simp only [isFinite, isNaN, decide_eq_true_eq, decide_eq_false_iff_not] at *
  omega

end Binary64

end ObjectStore
