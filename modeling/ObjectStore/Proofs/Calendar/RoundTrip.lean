import ObjectStore.Proofs.Calendar.Civil
import ObjectStore.Proofs.Calendar.Digits

/-!
This module proves that every day is read back from its text, and that a point in time is read back
from its text exactly when the year has four digits and no sign.
-/

namespace ObjectStore

open Decimal

theorem Text.trimStart_of_head {cs : List Char} (h : ∀ c ∈ cs.head?, isBlank c = false)
    : trimStart cs = cs := by
  cases cs with
  | nil => rfl
  | cons c cs => exact List.dropWhile_cons_of_neg (by simp [h c rfl])

theorem Text.trim_of_not_blank {cs : List Char} (h : ∀ c ∈ cs, isBlank c = false) : trim cs = cs := by
  have hlast : ∀ c ∈ cs.reverse.head?, isBlank c = false := by
    intro c hc
    exact h c (List.mem_reverse.mp (List.mem_of_head? hc))
  unfold trim trimEnd
  rw [trimStart_of_head fun c hc => h c (List.mem_of_head? hc), trimStart_of_head hlast,
    List.reverse_reverse]

theorem isBlank_of_isDigit {c : Char} (h : c.isDigit = true) : Text.isBlank c = false := by
  have hdigits : ∀ n < 58, 48 ≤ n → Text.isBlank (Char.ofNat n) = false := by decide
  have hrange : 48 ≤ c.toNat ∧ c.toNat ≤ 57 := by
    simpa [Char.isDigit, UInt32.le_iff_toNat_le] using h
  rw [← Char.ofNat_toNat c]
  exact hdigits c.toNat (by omega) hrange.1

section Digits

variable {ds rest : List Char}

theorem exists_cons_of_digits (hds : ∀ c ∈ ds, c.isDigit = true) (hne : ds ≠ []) (rest : List Char)
    : ∃ c cs, ds ++ rest = c :: cs ∧ c.isDigit = true := by
  obtain ⟨c, cs, rfl⟩ := List.exists_cons_of_ne_nil hne
  exact ⟨c, cs ++ rest, rfl, hds c List.mem_cons_self⟩

theorem trimStart_digits (hds : ∀ c ∈ ds, c.isDigit = true) (hne : ds ≠ []) (rest : List Char)
    : Text.trimStart (ds ++ rest) = ds ++ rest := by
  obtain ⟨c, cs, hcs, hdigit⟩ := exists_cons_of_digits hds hne rest
  rw [hcs]
  exact List.dropWhile_cons_of_neg (by simp [isBlank_of_isDigit hdigit])

theorem takeShort?_digits (hds : ∀ c ∈ ds, c.isDigit = true) (hne : ds ≠ []) (hlength : ds.length ≤ 2)
    (hrest : ∀ c ∈ rest.head?, c.isDigit = false)
    : takeShort? (ds ++ rest) = some (ofDigits ds, rest) := by
  unfold takeShort?
  rw [trimStart_digits hds hne]
  exact takeNumber?_digits hds hne hlength hrest

/-- A year that begins with a digit has no sign. -/
theorem takeYear?_digits (hds : ∀ c ∈ ds, c.isDigit = true) (hne : ds ≠ []) (rest : List Char)
    : takeYear? (ds ++ rest) = (takeNumber? 4 (ds ++ rest)).map fun (n, rest) => ((n : Int), rest) := by
  unfold takeYear?
  rw [trimStart_digits hds hne]
  obtain ⟨c, cs, hcs, hdigit⟩ := exists_cons_of_digits hds hne rest
  rw [hcs]
  split
  . next htext =>
    cases htext
    cases hdigit
  . next htext =>
    cases htext
    cases hdigit
  . rfl

end Digits

theorem takeChar?_self (c : Char) (cs : List Char) : takeChar? c (c :: cs) = some cs := by
  simp [takeChar?]

theorem takeShort?_padded {n : Nat} {rest : List Char} (h : n < 100)
    (hrest : ∀ c ∈ rest.head?, c.isDigit = false) : takeShort? (padded 2 n ++ rest) = some (n, rest) := by
  have hlength := Nat.le_of_eq (length_padded (by decide : 0 < 2) h)
  rw [takeShort?_digits padded_isDigit padded_ne_nil hlength hrest, ofDigits_padded]

theorem takeYear?_minus (cs : List Char)
    : takeYear? ('-' :: cs) = (takeNumber? cs.length cs).map fun (n, rest) => (-(n : Int), rest) := by
  rfl

theorem takeYear?_plus (cs : List Char)
    : takeYear? ('+' :: cs) = (takeNumber? cs.length cs).map fun (n, rest) => ((n : Int), rest) := by
  rfl

theorem takeYear?_yearText (year : Int) {rest : List Char} (hrest : ∀ c ∈ rest.head?, c.isDigit = false)
    : takeYear? (yearText year ++ rest) = some (year, rest) := by
  have hlong : takeNumber? (padded 4 year.natAbs ++ rest).length (padded 4 year.natAbs ++ rest)
      = some (year.natAbs, rest) :=
    takeNumber?_padded (by simp) hrest
  unfold yearText
  split
  . next hfour =>
    have hshort : takeNumber? 4 (padded 4 year.toNat ++ rest) = some (year.toNat, rest) :=
      takeNumber?_padded (Nat.le_of_eq (length_padded (by decide) (by omega))) hrest
    rw [takeYear?_digits padded_isDigit padded_ne_nil, hshort]
    simp only [Option.map_some]
    rw [Int.toNat_of_nonneg hfour.1]
  . split
    . rw [List.cons_append, takeYear?_minus, hlong]
      simp only [Option.map_some, Option.some.injEq, Prod.mk.injEq, and_true]
      omega
    . rw [List.cons_append, takeYear?_plus, hlong]
      simp only [Option.map_some, Option.some.injEq, Prod.mk.injEq, and_true]
      omega

namespace Day

theorem month_lt (d : Day) : d.civil.month < 100 := by
  have hvalid := Civil.valid_ofDayNumber d.number
  unfold Civil.Valid at hvalid
  unfold civil
  omega

theorem day_lt (d : Day) : d.civil.day < 100 := by
  have hvalid := Civil.valid_ofDayNumber d.number
  have hlength := Civil.monthLength_le (Civil.ofDayNumber d.number).year (Civil.ofDayNumber d.number).month
  unfold Civil.Valid at hvalid
  unfold civil
  omega

theorem chars_eq (d : Day)
    : d.chars = yearText d.civil.year ++ '-' :: (padded 2 d.civil.month ++ '-' :: padded 2 d.civil.day) := by
  unfold chars
  generalize d.civil = c
  dsimp only
  rw [List.append_assoc, List.cons_append]

theorem readCivil?_eq_some {cs : List Char} {d : Day}
    : readCivil? cs = some d
        ↔
      ∃ year rest, takeYear? cs = some (year, rest)
        ∧ ∃ rest₁, takeChar? '-' rest = some rest₁
        ∧ ∃ month rest₂, takeShort? rest₁ = some (month, rest₂)
        ∧ ∃ rest₃, takeChar? '-' rest₂ = some rest₃
        ∧ ∃ day rest₄, takeShort? rest₃ = some (day, rest₄)
        ∧ (if rest₄.isEmpty = true then ofCivil? ⟨year, month, day⟩ else none) = some d := by
  unfold readCivil?
  simp only [Option.bind_eq_bind, Option.bind_eq_some_iff, Prod.exists]

theorem readCivil?_chars (d : Day) : readCivil? d.chars = some d := by
  have hdash : ∀ rest, ∀ c ∈ ('-' :: rest).head?, c.isDigit = false := by
    rintro rest c hc
    cases hc
    decide
  have hday : takeShort? (padded 2 d.civil.day) = some (d.civil.day, []) := by
    rw [← List.append_nil (padded 2 d.civil.day)]
    exact takeShort?_padded d.day_lt (by simp)
  have hcivil : (if ([] : List Char).isEmpty = true then
      ofCivil? ⟨d.civil.year, d.civil.month, d.civil.day⟩ else none) = some d := by
    rw [if_pos (by rfl)]
    exact ofCivil?_of_eq rfl
  rw [chars_eq]
  exact readCivil?_eq_some.mpr ⟨d.civil.year, _, takeYear?_yearText _ (hdash _), _, takeChar?_self _ _,
    d.civil.month, _, takeShort?_padded d.month_lt (hdash _), _, takeChar?_self _ _, d.civil.day, _,
    hday, hcivil⟩

theorem chars_not_blank (d : Day) : ∀ c ∈ d.chars, Text.isBlank c = false := by
  have hdigits : ∀ width n, ∀ c ∈ padded width n, Text.isBlank c = false :=
    fun width n c hc => isBlank_of_isDigit (padded_isDigit c hc)
  have hyear : ∀ c ∈ yearText d.civil.year, Text.isBlank c = false := by
    unfold yearText
    split
    . exact hdigits _ _
    . refine List.forall_mem_cons.mpr ⟨?_, hdigits _ _⟩
      split <;> decide
  rw [chars_eq]
  refine List.forall_mem_append.mpr ⟨hyear, List.forall_mem_cons.mpr ⟨by decide, ?_⟩⟩
  exact List.forall_mem_append.mpr ⟨hdigits _ _, List.forall_mem_cons.mpr ⟨by decide, hdigits _ _⟩⟩

@[simp]
theorem read?_text (d : Day) : read? d.text = some d := by
  unfold read? text
  rw [String.toList_ofList, Text.trim_of_not_blank d.chars_not_blank]
  dsimp only
  rw [readCivil?_chars]
  rfl

end Day

namespace Timestamp

theorem takeFraction?_fractionText {nano : Nat} (h : nano < 1000000000) (rest : List Char)
    : takeFraction? (fractionText nano ++ 'Z' :: rest) = some (nano, 'Z' :: rest) := by
  have hzed : ∀ c ∈ ('Z' :: rest).head?, c.isDigit = false := by
    rintro c hc
    cases hc
    decide
  unfold fractionText
  split
  . next hzero =>
    rw [hzero]
    rfl
  . split
    . rw [takeFraction?_padded (by decide) (by decide) (by omega) hzed]
      simp only [Option.some.injEq, Prod.mk.injEq, and_true]
      omega
    . split
      . rw [takeFraction?_padded (by decide) (by decide) (by omega) hzed]
        simp only [Option.some.injEq, Prod.mk.injEq, and_true]
        omega
      . rw [takeFraction?_padded (by decide) (by decide) h hzed]
        simp

/-- The time of the day with the offset. -/
def timeChars (t : Timestamp) : List Char :=
  padded 2 (t.second / 3600) ++ ':' :: (padded 2 (t.second / 60 % 60) ++ ':' ::
    (padded 2 (t.second % 60 + t.nano / 1000000000) ++
      (fractionText (t.nano % 1000000000) ++ ['Z'])))

theorem chars_eq (t : Timestamp) : t.chars = t.day.chars ++ 'T' :: t.timeChars := by
  simp [chars, timeChars]

theorem takeTimeOfDay?_timeChars (t : Timestamp)
    : takeTimeOfDay? t.timeChars = some ((t.second, t.nano), ['Z']) := by
  have hsecond := t.second_lt
  have hnano := t.nano_lt
  have hleap := t.leap
  have htwo : ∀ {n : Nat} (rest : List Char), n < 100 → takeDigits? 2 (padded 2 n ++ rest) = some (n, rest) :=
    fun rest h => takeDigits?_padded (by decide) h
  unfold takeTimeOfDay? timeChars
  rw [htwo _ (by omega)]
  simp only [Option.bind_eq_bind, Option.bind_some, takeChar?_self]
  rw [htwo _ (by omega)]
  simp only [Option.bind_some, takeChar?_self]
  rw [htwo _ (by omega)]
  simp only [Option.bind_some]
  rw [takeFraction?_fractionText (by omega)]
  simp only [Option.bind_some]
  rw [if_pos (by omega)]
  split
  . simp only [Option.some.injEq, Prod.mk.injEq, and_true]
    omega
  . simp only [Option.some.injEq, Prod.mk.injEq, and_true]
    omega

theorem read?_of_parts {year month day second nano : Nat} {d : Day} {cs : List Char}
    (hyear : year < 10000) (hmonth : month < 100) (hday : day < 100)
    (hdate : Day.ofCivil? ⟨year, month, day⟩ = some d)
    (htime : takeTimeOfDay? cs = some ((second, nano), ['Z']))
    : LocalTime.read? (padded 4 year ++ '-' :: (padded 2 month ++ '-' :: (padded 2 day ++ 'T' :: cs)))
        =
      some ⟨d, second, nano, 0⟩ := by
  unfold LocalTime.read?
  rw [takeDigits?_padded (by decide) hyear]
  simp only [Option.bind_eq_bind, Option.bind_some, takeChar?_self]
  rw [takeDigits?_padded (by decide) hmonth]
  simp only [Option.bind_some, takeChar?_self]
  rw [takeDigits?_padded (by decide) hday]
  simp only [Option.bind_some, takeChar?_self, Option.orElse_eq_orElse, Option.orElse_some]
  rw [htime]
  simp only [Option.bind_some, takeOffset?]
  rw [hdate]
  simp only [Option.bind_some, List.isEmpty_nil, if_true]

theorem read?_chars (t : Timestamp) (h : 0 ≤ t.day.civil.year ∧ t.day.civil.year ≤ 9999)
    : LocalTime.read? t.chars = some ⟨t.day, t.second, t.nano, 0⟩ := by
  have hyear : (t.day.civil.year.toNat : Int) = t.day.civil.year := Int.toNat_of_nonneg h.1
  have hdate : Day.ofCivil? ⟨t.day.civil.year.toNat, t.day.civil.month, t.day.civil.day⟩ = some t.day := by
    rw [hyear]
    exact Day.ofCivil?_of_eq rfl
  rw [chars_eq, Day.chars_eq, yearText, if_pos h]
  rw [List.append_assoc, List.cons_append, List.append_assoc, List.cons_append]
  exact read?_of_parts (by omega) t.day.month_lt t.day.day_lt hdate t.takeTimeOfDay?_timeChars

theorem chars_not_blank (t : Timestamp) : ∀ c ∈ t.chars, Text.isBlank c = false := by
  have hdigits : ∀ width n, ∀ c ∈ padded width n, Text.isBlank c = false :=
    fun width n c hc => isBlank_of_isDigit (padded_isDigit c hc)
  have hfraction : ∀ nano, ∀ c ∈ fractionText nano, Text.isBlank c = false := by
    intro nano
    unfold fractionText
    split
    . simp
    . split
      . exact List.forall_mem_cons.mpr ⟨by decide, hdigits _ _⟩
      . split
        . exact List.forall_mem_cons.mpr ⟨by decide, hdigits _ _⟩
        . exact List.forall_mem_cons.mpr ⟨by decide, hdigits _ _⟩
  rw [chars_eq, timeChars]
  simp only [List.forall_mem_append, List.forall_mem_cons]
  refine ⟨t.day.chars_not_blank, by decide, hdigits _ _, by decide, hdigits _ _, by decide,
    hdigits _ _, hfraction _, by decide, by simp⟩

theorem ofEpochSeconds?_eq_some_iff {t : Timestamp} {seconds : Int} {nano : Nat}
    : ofEpochSeconds? seconds nano = some t ↔ t.epochSeconds = seconds ∧ t.nano = nano := by
  unfold ofEpochSeconds? epochSeconds
  constructor
  . intro h
    split at h
    . obtain ⟨day, hday, rfl⟩ := Option.map_eq_some_iff.mp h
      have hnumber := Day.ofNumber?_eq_some_iff.mp hday
      dsimp only
      omega
    . cases h
  . rintro ⟨rfl, rfl⟩
    have hsecond := t.second_lt
    have hday : (t.day.number * 86400 + t.second) / 86400 = t.day.number := by omega
    have hrest : (t.day.number * 86400 + t.second) % 86400 = t.second := by omega
    have hguard : t.nano < 2000000000
        ∧ (1000000000 ≤ t.nano → (t.day.number * 86400 + t.second) % 60 = 59) := by
      refine ⟨t.nano_lt, fun h => ?_⟩
      have hleap := t.leap h
      omega
    rw [dif_pos hguard]
    simp only [hday, hrest, Day.ofNumber?_number, Option.map_some, Int.toNat_natCast]

theorem utc?_eq (t : Timestamp) : LocalTime.utc? ⟨t.day, t.second, t.nano, 0⟩ = some t := by
  refine ofEpochSeconds?_eq_some_iff.mpr ⟨?_, rfl⟩
  exact (Int.sub_zero _).symm

/-- A year with a sign is no year of a point in time. -/
theorem read?_signed (t : Timestamp) (h : ¬(0 ≤ t.day.civil.year ∧ t.day.civil.year ≤ 9999))
    : LocalTime.read? t.chars = none := by
  have hsign : ∃ sign rest, t.chars = sign :: rest ∧ sign.isDigit = false := by
    rw [chars_eq, Day.chars_eq, yearText, if_neg h]
    generalize t.day.civil = c
    rw [List.cons_append, List.cons_append]
    refine ⟨_, _, rfl, ?_⟩
    split <;> decide
  obtain ⟨sign, rest, hchars, hdigit⟩ := hsign
  have htake : takeDigits? 4 (sign :: rest) = none := by
    unfold takeDigits?
    dsimp only
    rw [if_neg]
    simp [hdigit]
  rw [hchars]
  unfold LocalTime.read?
  rw [htake]
  rfl

/-- The year is written with four digits and no sign. -/
def HasFourDigitYear (t : Timestamp) : Prop :=
  0 ≤ t.day.civil.year ∧ t.day.civil.year ≤ 9999

instance (t : Timestamp) : Decidable t.HasFourDigitYear :=
  inferInstanceAs (Decidable (_ ∧ _))

theorem read?_text (t : Timestamp) : read? t.text = if t.HasFourDigitYear then some t else none := by
  unfold read? text
  rw [String.toList_ofList, Text.trim_of_not_blank t.chars_not_blank]
  split
  . next h => rw [read?_chars t h, Option.bind_some, utc?_eq]
  . next h =>
    rw [read?_signed t h]
    rfl

end Timestamp

end ObjectStore
