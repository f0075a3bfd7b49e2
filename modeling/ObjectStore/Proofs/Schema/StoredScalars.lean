import ObjectStore.Proofs.Schema.StoredValues

/-!
This module proves that texts, numbers, flags and days are read back from the documents that are written for
them, and how the days are written.
-/

namespace ObjectStore

namespace Decimal

/-- Digits for a number, with zeros in front if there were fewer than the width otherwise. -/
structure Spells (width n : Nat) (ds : List Char) : Prop where
  isDigit : ∀ c ∈ ds, c.isDigit = true
  ofDigits_eq : ofDigits ds = n
  width_le : width ≤ ds.length
  no_zero : width < ds.length → ds.head? ≠ some '0'

theorem digit_ne_zero {n : Nat} (h : n % 10 ≠ 0) : digit n ≠ '0' := by
  have hall : ∀ k < 10, k ≠ 0 → Char.ofNat (48 + k) ≠ '0' := by decide
  exact hall _ (Nat.mod_lt n (by decide)) h

theorem head?_digits {n : Nat} (h : n ≠ 0) : (digits n).head? ≠ some '0' := by
  induction n using digits.induct with
  | case1 n hn =>
    rw [digits, if_pos hn, List.head?_cons, ne_eq, Option.some.injEq]
    exact digit_ne_zero (by omega)
  | case2 n hn ih =>
    rw [digits, if_neg hn, List.head?_append_of_ne_nil _ (digits_ne_nil _)]
    exact ih (by omega)

theorem padded_eq (width n : Nat)
    : padded width n = List.replicate (width - (digits n).length) '0' ++ digits n := by
  rfl

theorem spells_padded {width : Nat} (hwidth : 0 < width) (n : Nat) : Spells width n (padded width n) := by
  have hlength : (padded width n).length = width - (digits n).length + (digits n).length := by
    rw [padded_eq, List.length_append, List.length_replicate]
  refine ⟨padded_isDigit, ofDigits_padded width n, by omega, ?_⟩
  intro hlong
  have hn : n ≠ 0 := by
    rintro rfl
    have hone : (digits 0).length ≤ 1 := length_digits_le (by decide) (by decide)
    omega
  have hnone : width - (digits n).length = 0 := by omega
  rw [padded_eq, hnone, List.replicate_zero, List.nil_append]
  exact head?_digits hn

end Decimal

open Decimal

/-- The sign of a year as it is written: years with four digits have none. -/
def yearSign (year : Int) : List Char :=
  if year < 0 then ['-'] else if 9999 < year then ['+'] else []

theorem exists_yearText (year : Int)
    : ∃ ds, yearText year = yearSign year ++ ds ∧ Spells 4 year.natAbs ds := by
  refine ⟨padded 4 year.natAbs, ?_, spells_padded (by decide) _⟩
  unfold yearText yearSign
  split
  . next hfour =>
    have habs : year.toNat = year.natAbs := by omega
    rw [if_neg (by omega), if_neg (by omega), habs, List.nil_append]
  . next hsign =>
    by_cases hnegative : year < 0
    . rw [if_pos hnegative, if_pos hnegative, List.singleton_append]
    . rw [if_neg hnegative, if_neg hnegative, if_pos (by omega), List.singleton_append]

namespace AttributeType

variable {ty : AttributeType} {u v : Value}

theorem cast_of_holds (hty : ty ∈ [text, integer, number, boolean, day]) (hv : ty.Holds v)
    (hfinite : ∀ x, v = .float x → x.isFinite = true) : ty.cast v = .ok v := by
  cases hv with
  | null => exact cast_null ty
  | number _ => exact cast_eq_ok.mpr (.inr ⟨rfl, if_pos (hfinite _ rfl)⟩)
  | text | integer | boolean | day => rfl
  | datetime | list | json => simp at hty

/-- A text, number, flag or day is read back from its document, whatever it was cast from; and all of them
can be cast from something, but for the floats that are not finite. Days are written with a sign where the
year is negative or has more than four digits. -/
theorem scalar_read_back (hty : ty ∈ [text, integer, number, boolean, day]) (h : ty.cast u = .ok v)
    : ty.decode v.toJson = .ok v
        ∧
      (∀ d, v = .day d → ∃ year month dayOfMonth,
        v.toJson = .string (String.ofList
            (yearSign d.civil.year ++ year ++ '-' :: (month ++ '-' :: dayOfMonth)))
          ∧ Spells 4 d.civil.year.natAbs year
          ∧ Spells 2 d.civil.month month
          ∧ Spells 2 d.civil.day dayOfMonth)
        ∧
      ∀ w, ty.Holds w → (∀ x, w = .float x → x.isFinite = true) → ty.cast w = .ok w := by
  have hscalar : ∀ t ∈ [text, integer, number, boolean, day], t.isScalar = true ∧ t ≠ datetime := by
    decide
  refine ⟨?_, ?_, fun w => cast_of_holds hty⟩
  . refine decode_toJson (hscalar ty hty).1 (cast_cast h) ?_
    rintro t rfl
    cases holds_of_cast h
    exact absurd rfl (hscalar datetime hty).2
  . rintro d rfl
    obtain ⟨year, hyear, hspells⟩ := exists_yearText d.civil.year
    refine ⟨year, _, _, ?_, hspells, spells_padded (by decide) _, spells_padded (by decide) _⟩
    rw [Value.toJson, Day.text, Day.chars_eq, hyear]

/-- The first day of the calendar. -/
def firstDay : Day := ⟨-96465292, by decide, by decide⟩

theorem scalar_read_back_of_first_day
    : day.cast (.string " -262143-1-1") = .ok (.day firstDay)
        ∧ (Value.day firstDay).toJson = .string "-262143-01-01"
        ∧ day.decode (Value.day firstDay).toJson = .ok (.day firstDay) := by
  have hcast : day.cast (.string " -262143-1-1") = .ok (.day firstDay) := rfl
  have htext : (Value.day firstDay).toJson = .string "-262143-01-01" := by
    have hcivil : firstDay.civil = ⟨-262143, 1, 1⟩ := by decide
    rw [Value.toJson, Day.text, Day.chars, hcivil]
    simp [yearText, padded, digits, digit]
  exact ⟨hcast, htext, (scalar_read_back (by decide) hcast).1⟩

end AttributeType

end ObjectStore
