import ObjectStore.Binary64.Basic

/-!
This module contains the rounding of fractions and integers to the nearest floating point number,
ties to the even one.
-/

namespace ObjectStore.Binary64

/-- The integer nearest to `num / den`. A tie goes to the even neighbour. -/
def roundQuotient (num den : Nat) : Nat :=
  let q := num / den
  let r := num % den
  if 2 * r > den || (2 * r == den && q % 2 == 1) then q + 1 else q

def floorLog2 (num den : Nat) : Int :=
  let e : Int := (num.log2 : Int) - den.log2
  let fits :=
    if 0 ≤ e then den * Nat.pow 2 e.toNat ≤ num else den ≤ num * Nat.pow 2 (-e).toNat
  if fits then e else e - 1

/-- The magnitude of the number nearest to `num / den`, before infinity is taken into account.
The significand is the quotient in units of `2 ^ q`, so a carry out of it moves on to the next
exponent by itself. -/
def nearestMagnitude (num den : Nat) : Nat :=
  if num = 0 then
    0
  else
    let q := max (floorLog2 num den - 52) (-1074)
    let significand :=
      if 0 ≤ q then
        roundQuotient num (den * Nat.pow 2 q.toNat)
      else
        roundQuotient (num * Nat.pow 2 (-q).toNat) den
    (q + 1074).toNat * hiddenBit + significand

def ofRatio (negative : Bool) (num den : Nat) : Binary64 :=
  ofMagnitude negative (nearestMagnitude num den)

def ofInt (i : Int) : Binary64 :=
  ofRatio (i < 0) i.natAbs 1

/-- The number nearest to `coefficient * 10 ^ exponent`. The coefficient lies between two powers of
ten that its length in bits gives, so a number far too large or too small needs no division. -/
def ofDecimal (negative : Bool) (coefficient : Nat) (exponent : Int) : Binary64 :=
  let bits : Int := coefficient.log2
  if coefficient = 0 then
    zero negative
  else if 310 < bits * 3 / 10 + exponent then
    inf negative
  else if (bits + 1) * 4 / 13 + 1 + exponent < -330 then
    zero negative
  else if 0 ≤ exponent then
    ofRatio negative (coefficient * Nat.pow 10 exponent.toNat) 1
  else
    ofRatio negative coefficient (Nat.pow 10 (-exponent).toNat)

end ObjectStore.Binary64
