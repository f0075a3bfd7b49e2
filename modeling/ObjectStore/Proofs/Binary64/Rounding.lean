import Mathlib.Algebra.Group.Nat.Defs
import ObjectStore.Binary64.Rounding

/-!
This module proves what rounding to the nearest float does to integers. It keeps their order: different
integers may be rounded to the same float, but never past one another.
-/

namespace ObjectStore.Binary64

variable {n m : Nat}

theorem floorLog2_one (h : n ≠ 0) : floorLog2 n 1 = n.log2 := by
  have hfits : Nat.pow 2 n.log2 ≤ n := Nat.log2_self_le h
  have hone : Nat.log2 1 = 0 := by decide
  unfold floorLog2
  simp only [hone, Int.natCast_zero, Int.sub_zero, Int.natCast_nonneg, if_true, Int.toNat_natCast,
    Nat.one_mul]
  rw [if_pos (by simpa using hfits)]

theorem roundQuotient_le (num den : Nat) : roundQuotient num den ≤ num / den + 1 := by
  unfold roundQuotient
  dsimp only
  split <;> omega

theorem le_roundQuotient (num den : Nat) : num / den ≤ roundQuotient num den := by
  unfold roundQuotient
  dsimp only
  split <;> omega

theorem roundQuotient_one (n : Nat) : roundQuotient n 1 = n := by
  unfold roundQuotient
  simp [Nat.mod_one]

theorem roundQuotient_mono {num num' : Nat} (h : num ≤ num') (den : Nat)
    : roundQuotient num den ≤ roundQuotient num' den := by
  rcases Nat.lt_or_eq_of_le (Nat.div_le_div_right (c := den) h) with hlt | heq
  . calc
      roundQuotient num den ≤ num / den + 1 := roundQuotient_le num den
      _ ≤ num' / den := hlt
      _ ≤ roundQuotient num' den := le_roundQuotient num' den
  -- Both lie between the same integers, so the greater one has the greater remainder.
  . have hmod : num % den ≤ num' % den := by
      have hnum := Nat.div_add_mod num den
      have hnum' := Nat.div_add_mod num' den
      rw [heq] at hnum
      omega
    unfold roundQuotient
    dsimp only
    rw [heq]
    simp only [Bool.or_eq_true, Bool.and_eq_true, decide_eq_true_eq, beq_iff_eq]
    split
    . exact Nat.le_of_eq (if_pos (by omega)).symm
    . split <;> omega

/-- The 53 bits that are left of an integer, with those in front that are zero moved out of the way. -/
def roundedBits (n : Nat) : Nat :=
  if 52 ≤ n.log2 then roundQuotient n (2 ^ (n.log2 - 52)) else n * 2 ^ (52 - n.log2)

theorem nearestMagnitude_one (h : n ≠ 0)
    : nearestMagnitude n 1 = (n.log2 + 1022) * 2 ^ 52 + roundedBits n := by
  have hexponent : max (floorLog2 n 1 - 52) (-1074) = (n.log2 : Int) - 52 := by
    rw [floorLog2_one h]
    omega
  have hplace : ((n.log2 : Int) - 52 + 1074).toNat = n.log2 + 1022 := by omega
  unfold nearestMagnitude roundedBits hiddenBit
  rw [if_neg h]
  dsimp only
  rw [hexponent, hplace]
  congr 1
  by_cases hlarge : 52 ≤ n.log2
  . have hshift : ((n.log2 : Int) - 52).toNat = n.log2 - 52 := by omega
    rw [if_pos (by omega), if_pos hlarge, hshift, Nat.one_mul]
    rfl
  . have hshift : (-((n.log2 : Int) - 52)).toNat = 52 - n.log2 := by omega
    rw [if_neg (by omega), if_neg hlarge, hshift, roundQuotient_one]
    rfl

theorem le_roundedBits (h : n ≠ 0) : 2 ^ 52 ≤ roundedBits n := by
  have hlog := Nat.log2_self_le h
  unfold roundedBits
  split
  . next hlarge =>
    have hsplit : 2 ^ n.log2 = 2 ^ 52 * 2 ^ (n.log2 - 52) := by
      rw [← Nat.pow_add]
      congr 1
      omega
    calc
      2 ^ 52 ≤ n / 2 ^ (n.log2 - 52) := by
        rw [Nat.le_div_iff_mul_le (Nat.two_pow_pos _), ← hsplit]
        exact hlog
      _ ≤ roundQuotient n (2 ^ (n.log2 - 52)) := le_roundQuotient _ _
  . next hsmall =>
    calc
      2 ^ 52 = 2 ^ n.log2 * 2 ^ (52 - n.log2) := by
        rw [← Nat.pow_add]
        congr 1
        omega
      _ ≤ n * 2 ^ (52 - n.log2) := Nat.mul_le_mul_right _ hlog

/-- There are no more than 53 bits, but for a carry. -/
theorem roundedBits_le (n : Nat) : roundedBits n ≤ 2 ^ 53 := by
  have hlog : n < 2 ^ (n.log2 + 1) := Nat.lt_log2_self
  unfold roundedBits
  split
  . next hlarge =>
    have hsplit : 2 ^ (n.log2 + 1) = 2 ^ 53 * 2 ^ (n.log2 - 52) := by
      rw [← Nat.pow_add]
      congr 1
      omega
    have hquotient : n / 2 ^ (n.log2 - 52) < 2 ^ 53 := by
      rw [Nat.div_lt_iff_lt_mul (Nat.two_pow_pos _), ← hsplit]
      exact hlog
    exact Nat.le_trans (roundQuotient_le _ _) hquotient
  . next hsmall =>
    calc
      n * 2 ^ (52 - n.log2) ≤ 2 ^ (n.log2 + 1) * 2 ^ (52 - n.log2) :=
        Nat.mul_le_mul_right _ (Nat.le_of_lt hlog)
      _ = 2 ^ 53 := by
        rw [← Nat.pow_add]
        congr 1
        omega

theorem roundedBits_mono (h : n ≤ m) (hlog : n.log2 = m.log2) : roundedBits n ≤ roundedBits m := by
  unfold roundedBits
  rw [hlog]
  split
  . exact roundQuotient_mono h _
  . exact Nat.mul_le_mul_right _ h

theorem nearestMagnitude_mono (h : n ≤ m) : nearestMagnitude n 1 ≤ nearestMagnitude m 1 := by
  by_cases hn : n = 0
  . subst hn
    exact Nat.zero_le _
  have hm : m ≠ 0 := by omega
  have hlog : n.log2 ≤ m.log2 := (Nat.le_log2 hm).mpr (Nat.le_trans (Nat.log2_self_le hn) h)
  rw [nearestMagnitude_one hn, nearestMagnitude_one hm]
  rcases Nat.lt_or_eq_of_le hlog with hlt | heq
  -- A carry leads no further than to the next power of two.
  . have hcarry := roundedBits_le n
    have hbits := le_roundedBits hm
    omega
  . rw [heq]
    exact Nat.add_le_add_left (roundedBits_mono h heq) _

/-- An integer of 64 bits is far below infinity. -/
theorem nearestMagnitude_lt (h : n < 2 ^ 64) : nearestMagnitude n 1 < infinity := by
  by_cases hzero : n = 0
  . subst hzero
    decide
  have hbits : n.log2 < 64 := (Nat.log2_lt hzero).mpr h
  have hcarry := roundedBits_le n
  rw [nearestMagnitude_one hzero]
  unfold infinity
  omega

theorem isFinite_ofInt {i : Int} (h : i.natAbs < 2 ^ 64) : (ofInt i).isFinite = true := by
  unfold ofInt ofRatio ofMagnitude isFinite
  have hlt := nearestMagnitude_lt h
  simp only [decide_eq_true_eq]
  omega

theorem magnitude_ofInt (i : Int)
    : (ofInt i).magnitude = min (nearestMagnitude i.natAbs 1) infinity := rfl

theorem place_ofInt (i : Int)
    : (ofInt i).place
        =
      if i < 0 then -((ofInt i).magnitude : Int) else (ofInt i).magnitude := by
  unfold place
  by_cases hi : i < 0 <;> simp [hi, ofInt, ofRatio, ofMagnitude]

/-- Rounding keeps the order of the integers. -/
theorem place_ofInt_mono {i j : Int} (h : i ≤ j) : (ofInt i).place ≤ (ofInt j).place := by
  rw [place_ofInt, place_ofInt, magnitude_ofInt, magnitude_ofInt]
  by_cases hi : i < 0
  . by_cases hj : j < 0
    . have hmono := nearestMagnitude_mono (n := j.natAbs) (m := i.natAbs) (by omega)
      rw [if_pos hi, if_pos hj]
      omega
    . rw [if_pos hi, if_neg hj]
      omega
  . have hmono := nearestMagnitude_mono (n := i.natAbs) (m := j.natAbs) (by omega)
    rw [if_neg hi, if_neg (by omega)]
    omega

theorem roundedBits_of_lt (h : n < 2 ^ 53) : roundedBits n = n * 2 ^ (52 - n.log2) := by
  unfold roundedBits
  split
  . next hlarge =>
    have hlog : n.log2 ≤ 52 := by
      by_cases hn : n = 0
      . subst hn
        contradiction
      . exact Nat.le_of_lt_succ ((Nat.log2_lt hn).mpr h)
    have heq : n.log2 = 52 := by omega
    rw [heq]
    exact (roundQuotient_one n).trans (Nat.mul_one n).symm
  . rfl

/-- Integers of up to 53 bits are not rounded at all, so none meets another. -/
theorem nearestMagnitude_lt_of_lt (h : n < m) (hm : m ≤ 2 ^ 53)
    : nearestMagnitude n 1 < nearestMagnitude m 1 := by
  have hm0 : m ≠ 0 := by omega
  have hbits := le_roundedBits hm0
  rw [nearestMagnitude_one hm0]
  by_cases hn : n = 0
  . subst hn
    change 0 < _
    omega
  have hn53 : n < 2 ^ 53 := by omega
  have hnlog : n.log2 < 53 := (Nat.log2_lt hn).mpr hn53
  have hlog : n.log2 ≤ m.log2 :=
    (Nat.le_log2 hm0).mpr (Nat.le_trans (Nat.log2_self_le hn) (Nat.le_of_lt h))
  rw [nearestMagnitude_one hn, roundedBits_of_lt hn53]
  rcases Nat.lt_or_eq_of_le hlog with hlt | heq
  . have hcarry : n * 2 ^ (52 - n.log2) < 2 ^ 53 := by
      calc
        n * 2 ^ (52 - n.log2) < 2 ^ (n.log2 + 1) * 2 ^ (52 - n.log2) :=
          Nat.mul_lt_mul_of_pos_right Nat.lt_log2_self (Nat.two_pow_pos _)
        _ = 2 ^ 53 := by
          rw [← Nat.pow_add]
          congr 1
          omega
    omega
  . have hm53 : m < 2 ^ 53 := (Nat.log2_lt hm0).mp (heq ▸ hnlog)
    rw [roundedBits_of_lt hm53, heq]
    exact Nat.add_lt_add_left (Nat.mul_lt_mul_of_pos_right h (Nat.two_pow_pos _)) _

theorem place_ofInt_lt {i j : Int} (h : i < j) (hi : i.natAbs ≤ 2 ^ 53) (hj : j.natAbs ≤ 2 ^ 53)
    : (ofInt i).place < (ofInt j).place := by
  have hlarge (n : Nat) (hn : n ≤ 2 ^ 53) : nearestMagnitude n 1 < infinity :=
    nearestMagnitude_lt (by omega)
  have hsmall := hlarge i.natAbs
  have hsmall' := hlarge j.natAbs
  rw [place_ofInt, place_ofInt, magnitude_ofInt, magnitude_ofInt]
  by_cases hi : i < 0
  . by_cases hj : j < 0
    . have hlt := nearestMagnitude_lt_of_lt (n := j.natAbs) (m := i.natAbs) (by omega) (by omega)
      rw [if_pos hi, if_pos hj]
      omega
    . have hlt := nearestMagnitude_lt_of_lt (n := 0) (m := i.natAbs) (by omega) (by omega)
      rw [if_pos hi, if_neg hj]
      omega
  . have hlt := nearestMagnitude_lt_of_lt (n := i.natAbs) (m := j.natAbs) (by omega) (by omega)
    rw [if_neg hi, if_neg (by omega)]
    omega

end ObjectStore.Binary64
