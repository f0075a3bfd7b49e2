import Mathlib.Algebra.Group.Nat.Defs
import ObjectStore.Calendar.Reader
import ObjectStore.Calendar.Writer

/-!
This module proves that numbers are read back from their digits, with leading zeros or without, and
whatever stands behind them, as long as it does not begin with a further digit.
-/

namespace ObjectStore

namespace Decimal

theorem length_digits_le {width n : Nat} (hwidth : 0 < width) (h : n < 10 ^ width)
    : (digits n).length ≤ width := by
  induction n using digits.induct generalizing width with
  | case1 n hn =>
    rw [digits, if_pos hn]
    exact hwidth
  | case2 n hn ih =>
    rw [digits, if_neg hn, List.length_append, List.length_singleton]
    cases width with
    | zero => omega
    | succ width =>
      have hshort : 0 < width := by
        apply Nat.pos_of_ne_zero
        rintro rfl
        omega
      have hdiv : n / 10 < 10 ^ width := by
        rw [Nat.pow_succ] at h
        omega
      exact Nat.succ_le_succ (ih hshort hdiv)

theorem length_padded {width n : Nat} (hwidth : 0 < width) (h : n < 10 ^ width)
    : (padded width n).length = width := by
  have hle := length_digits_le hwidth h
  unfold padded
  rw [List.length_append, List.length_replicate]
  omega

theorem padded_isDigit {width n : Nat} : ∀ c ∈ padded width n, c.isDigit = true := by
  unfold padded
  intro c hc
  obtain hc | hc := List.mem_append.mp hc
  . rw [List.eq_of_mem_replicate hc]
    decide
  . exact digits_all_isDigit n c hc

theorem padded_ne_nil {width n : Nat} : padded width n ≠ [] := by
  unfold padded
  simp [digits_ne_nil]

theorem ofDigits_zeros (count : Nat) (ds : List Char)
    : ofDigits (List.replicate count '0' ++ ds) = ofDigits ds := by
  induction count with
  | zero => rfl
  | succ count ih =>
    rw [List.replicate_succ, List.cons_append]
    exact ih

@[simp]
theorem ofDigits_padded (width n : Nat) : ofDigits (padded width n) = n := by
  unfold padded
  rw [ofDigits_zeros, ofDigits_digits]

theorem takeWhile_digits {ds rest : List Char} (h : ∀ c ∈ ds, c.isDigit = true)
    (hrest : ∀ c ∈ rest.head?, c.isDigit = false) : (ds ++ rest).takeWhile Char.isDigit = ds := by
  rw [List.takeWhile_append_of_pos h]
  cases rest with
  | nil => simp
  | cons c rest => simp [hrest c rfl]

end Decimal

open Decimal

variable {width most n : Nat} {rest : List Char}

theorem takeDigits?_padded (hwidth : 0 < width) (h : n < 10 ^ width)
    : takeDigits? width (padded width n ++ rest) = some (n, rest) := by
  have hlength := length_padded hwidth h
  have htake : (padded width n ++ rest).take width = padded width n := by
    rw [List.take_append_of_le_length (by omega), List.take_of_length_le (by omega)]
  have hdrop : (padded width n ++ rest).drop width = rest := by
    rw [List.drop_append_of_le_length (by omega), List.drop_of_length_le (by omega), List.nil_append]
  have hdigits : (padded width n).all Char.isDigit = true := List.all_eq_true.mpr padded_isDigit
  unfold takeDigits?
  rw [htake, hdrop]
  simp only [hlength, hdigits, and_self, if_true, ofDigits_padded]

theorem takeNumber?_digits {ds : List Char} (hds : ∀ c ∈ ds, c.isDigit = true) (hne : ds ≠ [])
    (hlength : ds.length ≤ most) (hrest : ∀ c ∈ rest.head?, c.isDigit = false)
    : takeNumber? most (ds ++ rest) = some (ofDigits ds, rest) := by
  unfold takeNumber?
  rw [takeWhile_digits hds hrest, List.take_of_length_le hlength]
  simp [hne]

theorem takeNumber?_padded (hlength : (padded width n).length ≤ most)
    (hrest : ∀ c ∈ rest.head?, c.isDigit = false)
    : takeNumber? most (padded width n ++ rest) = some (n, rest) := by
  rw [takeNumber?_digits padded_isDigit padded_ne_nil hlength hrest, ofDigits_padded]

theorem takeFraction?_padded (hwidth : 0 < width) (hnine : width ≤ 9) (h : n < 10 ^ width)
    (hrest : ∀ c ∈ rest.head?, c.isDigit = false)
    : takeFraction? ('.' :: padded width n ++ rest) = some (n * 10 ^ (9 - width), rest) := by
  have hlength := length_padded hwidth h
  have htake : (padded width n).take 9 = padded width n := List.take_of_length_le (by omega)
  rw [List.cons_append, takeFraction?, takeWhile_digits padded_isDigit hrest, htake,
    if_neg (by simp [padded_ne_nil]), ofDigits_padded, List.drop_left, hlength, Nat.pow_eq]

end ObjectStore
