import ObjectStore.Binary64.Rounding

/-!
This module finds the shortest decimal that reads back as a given floating point number: the first
decimal grid, from one digit on, that has a point among the reals that round to the number, and on
that grid the point nearest to the number.
-/

namespace ObjectStore.Binary64

inductive Tie where
  | toEven
  | up
deriving DecidableEq, Repr

structure ShortDecimal where
  coefficient : Nat
  exponent : Int
deriving DecidableEq, Repr

def floorLog10 (num den : Nat) : Int :=
  let p := floorLog2 num den * 30103 / 100000
  let above :=
    if 0 ≤ p + 1 then
      den * Nat.pow 10 (p + 1).toNat ≤ num
    else
      den ≤ num * Nat.pow 10 (-(p + 1)).toNat
  if above then p + 1 else p

structure Interval where
  low : Nat
  num : Nat
  high : Nat
  den : Nat
  closed : Bool
deriving Repr

/-- The reals that round to a finite number. They reach half way to its two neighbours, and the
ends belong to them if the significand is even. The neighbour below a power of two is nearer. -/
def roundingInterval (x : Binary64) : Interval :=
  let m := x.significand
  let below := if m = hiddenBit ∧ -1074 < x.exponent then 1 else 2
  let q := x.exponent - 2
  let scale := Nat.pow 2 q.toNat
  ⟨(4 * m - below) * scale, 4 * m * scale, (4 * m + 2) * scale, Nat.pow 2 (-q).toNat, m % 2 == 0⟩

/-- The point of the grid with spacing `10 ^ k` that lies in the interval and is nearest to its
value, if the grid has a point there. -/
def Interval.nearest? (i : Interval) (k : Int) (tie : Tie) : Option Nat :=
  let unit := i.den * Nat.pow 10 k.toNat
  let scale := Nat.pow 10 (-k).toNat
  let inside (d : Nat) : Bool :=
    if i.closed then
      i.low * scale ≤ d * unit && d * unit ≤ i.high * scale
    else
      i.low * scale < d * unit && d * unit < i.high * scale
  let d := i.num * scale / unit
  let below := i.num * scale - d * unit
  let above := (d + 1) * unit - i.num * scale
  match inside d, inside (d + 1) with
  | false, false => none
  | true, false => some d
  | false, true => some (d + 1)
  | true, true =>
    if below < above then some d
    else if above < below then some (d + 1)
    else match tie with
      | .up => some (d + 1)
      | .toEven => some (if d % 2 = 0 then d else d + 1)

/-- Takes the zeros off the end of a coefficient. At most `fuel` of them are taken. -/
def ShortDecimal.strip (fuel : Nat) (s : ShortDecimal) : ShortDecimal :=
  match fuel with
  | 0 => s
  | fuel + 1 =>
    if s.coefficient % 10 = 0 ∧ s.coefficient ≠ 0 then
      strip fuel ⟨s.coefficient / 10, s.exponent + 1⟩
    else
      s

/-- The shortest decimal for the magnitude of a finite number. Seventeen digits are always
enough. -/
def shortest (x : Binary64) (tie : Tie) : ShortDecimal :=
  if x.magnitude = 0 then
    ⟨0, 0⟩
  else
    let i := x.roundingInterval
    let p := floorLog10 i.num i.den
    go i p 17
where
  go (i : Interval) (k : Int) : Nat → ShortDecimal
    | 0 => ⟨i.num / i.den, 0⟩
    | fuel + 1 =>
      match i.nearest? k tie with
      | some d => ShortDecimal.strip 20 ⟨d, k⟩
      | none => go i (k - 1) fuel

end ObjectStore.Binary64
