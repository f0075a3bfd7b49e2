import ObjectStore.Proofs.Calendar.RoundTrip

/-!
This module proves which day is read from the text of a point in time: the one whose date stands in front of
the text, whatever the offset is. It is the day in UTC where the offset does not carry the time of the day
across midnight.
-/

namespace ObjectStore

open Decimal

section Inversion

variable {cs rest : List Char} {c : Char}

/-- A text of so many digits. -/
structure IsDigits (count : Nat) (ds : List Char) : Prop where
  length_eq : ds.length = count
  isDigit : ∀ c ∈ ds, c.isDigit = true

theorem IsDigits.ne_nil {count : Nat} {ds : List Char} (h : IsDigits (count + 1) ds) : ds ≠ [] := by
  apply List.ne_nil_of_length_eq_add_one
  exact h.length_eq

theorem takeDigits?_eq_some {count n : Nat} (h : takeDigits? count cs = some (n, rest))
    : ∃ ds, cs = ds ++ rest ∧ IsDigits count ds ∧ ofDigits ds = n := by
  unfold takeDigits? at h
  dsimp only at h
  split at h
  . next hds =>
    cases h
    exact ⟨cs.take count, (List.take_append_drop count cs).symm, ⟨hds.1, List.all_eq_true.mp hds.2⟩, rfl⟩
  . cases h

theorem takeChar?_eq_some (h : takeChar? c cs = some rest) : cs = c :: rest := by
  unfold takeChar? at h
  split at h
  . split at h
    . next hc =>
      cases h
      rw [hc]
    . cases h
  . cases h

theorem exists_letter (h : (takeChar? 'T' cs <|> takeChar? 't' cs <|> takeChar? ' ' cs) = some rest)
    : ∃ c, cs = c :: rest ∧ c.isDigit = false := by
  simp only [Option.orElse_eq_orElse, Option.orElse_eq_or, Option.or_eq_some_iff] at h
  obtain h | ⟨-, h | ⟨-, h⟩⟩ := h
  . exact ⟨'T', takeChar?_eq_some h, by decide⟩
  . exact ⟨'t', takeChar?_eq_some h, by decide⟩
  . exact ⟨' ', takeChar?_eq_some h, by decide⟩

theorem takeTimeOfDay?_lt {second nano : Nat} (h : takeTimeOfDay? cs = some ((second, nano), rest))
    : second < 86400 := by
  unfold takeTimeOfDay? at h
  simp only [Option.bind_eq_bind, Option.bind_eq_some_iff, Prod.exists] at h
  obtain ⟨hour, _, -, _, -, minute, _, -, _, -, digits, _, -, fraction, _, -, htime⟩ := h
  split at htime
  . next hclock =>
    split at htime
    . cases htime
      omega
    . cases htime
      omega
  . cases htime

theorem takeOffset?_bounds {offset : Int} (h : takeOffset? cs = some (offset, rest))
    : -86400 < offset ∧ offset < 86400 := by
  have hdistance : ∀ {sign : Int} {cs : List Char}, sign = 1 ∨ sign = -1
      → takeOffset?.distance? sign cs = some (offset, rest) → -86400 < offset ∧ offset < 86400 := by
    intro sign cs hsign h
    unfold takeOffset?.distance? at h
    simp only [Option.bind_eq_bind, Option.bind_eq_some_iff, Prod.exists] at h
    obtain ⟨hours, _, -, _, -, minutes, _, -, hoffset⟩ := h
    split at hoffset
    . cases hoffset
      obtain rfl | rfl := hsign <;> omega
    . cases hoffset
  unfold takeOffset? at h
  split at h
  . cases h
    decide
  . cases h
    decide
  . exact hdistance (.inl rfl) h
  . exact hdistance (.inr rfl) h
  . exact hdistance (.inr rfl) h
  . cases h

end Inversion

/-- A date with four digits for the year and two each for the month and the day, and what stands behind it. -/
theorem Day.readCivil?_digits {year month day rest : List Char} (hyear : IsDigits 4 year)
    (hmonth : IsDigits 2 month) (hday : IsDigits 2 day) (hrest : ∀ c ∈ rest.head?, c.isDigit = false)
    : readCivil? (year ++ '-' :: (month ++ '-' :: (day ++ rest)))
        =
      if rest.isEmpty then ofCivil? ⟨ofDigits year, ofDigits month, ofDigits day⟩ else none := by
  have hdash : ∀ rest, ∀ c ∈ ('-' :: rest).head?, c.isDigit = false := by
    rintro rest c ⟨⟩
    decide
  unfold readCivil?
  rw [takeYear?_digits hyear.isDigit hyear.ne_nil,
    takeNumber?_digits hyear.isDigit hyear.ne_nil (Nat.le_of_eq hyear.length_eq) (hdash _)]
  simp only [Option.map_some, Option.bind_eq_bind, Option.bind_some, takeChar?_self]
  rw [takeShort?_digits hmonth.isDigit hmonth.ne_nil (Nat.le_of_eq hmonth.length_eq) (hdash _)]
  simp only [Option.bind_some, takeChar?_self]
  rw [takeShort?_digits hday.isDigit hday.ne_nil (Nat.le_of_eq hday.length_eq) hrest]
  rfl

namespace LocalTime

variable {cs : List Char} {w : LocalTime} {t : Timestamp}

/-- What the text of a point in time consists of: a date, a letter or blank, the time of the day and the
offset. -/
theorem read?_eq_some (h : read? cs = some w)
    : ∃ year month day c time offset, cs = year ++ '-' :: (month ++ '-' :: (day ++ c :: time))
        ∧ IsDigits 4 year
        ∧ IsDigits 2 month
        ∧ IsDigits 2 day
        ∧ c.isDigit = false
        ∧ Day.ofCivil? ⟨ofDigits year, ofDigits month, ofDigits day⟩ = some w.day
        ∧ takeTimeOfDay? time = some ((w.second, w.nano), offset)
        ∧ takeOffset? offset = some (w.offset, []) := by
  unfold read? at h
  simp only [Option.bind_eq_bind, Option.bind_eq_some_iff, Prod.exists] at h
  obtain ⟨_, _, hyear, _, hdash, _, _, hmonth, _, hdash', _, _, hday, time, hletter, second, nano, offset,
    htime, seconds, rest, hoffset, d, hcivil, hend⟩ := h
  obtain ⟨year, rfl, hyears, rfl⟩ := takeDigits?_eq_some hyear
  obtain rfl := takeChar?_eq_some hdash
  obtain ⟨month, rfl, hmonths, rfl⟩ := takeDigits?_eq_some hmonth
  obtain rfl := takeChar?_eq_some hdash'
  obtain ⟨day, rfl, hdays, rfl⟩ := takeDigits?_eq_some hday
  obtain ⟨c, rfl, hc⟩ := exists_letter hletter
  split at hend
  . next hempty =>
    cases hend
    rw [List.isEmpty_iff.mp hempty] at hoffset
    exact ⟨year, month, day, c, time, offset, rfl, hyears, hmonths, hdays, hc, hcivil, htime, hoffset⟩
  . cases hend

/-- The time of the day is one of the same day in UTC. -/
def KeepsDay (w : LocalTime) : Prop :=
  w.offset ≤ w.second ∧ w.second < w.offset + 86400

instance (w : LocalTime) : Decidable w.KeepsDay :=
  inferInstanceAs (Decidable (_ ∧ _))

theorem day_eq_iff_keepsDay (h : w.utc? = some t) : w.day = t.day ↔ w.KeepsDay := by
  obtain ⟨hseconds, -⟩ := Timestamp.ofEpochSeconds?_eq_some_iff.mp h
  have hsecond := t.second_lt
  rw [← Day.number_inj]
  unfold Timestamp.epochSeconds at hseconds
  unfold KeepsDay
  omega

/-- In UTC it is the same day, the day before or the day after. -/
theorem day_near (hsecond : w.second < 86400) (hoffset : -86400 < w.offset ∧ w.offset < 86400)
    (h : w.utc? = some t) : w.day.number ≤ t.day.number + 1 ∧ t.day.number ≤ w.day.number + 1 := by
  obtain ⟨hseconds, -⟩ := Timestamp.ofEpochSeconds?_eq_some_iff.mp h
  have hsecond' := t.second_lt
  unfold Timestamp.epochSeconds at hseconds
  omega

end LocalTime

/-- The date of a point in time as it is written. -/
def dateText (s : String) : String :=
  String.ofList ((Text.trim s.toList).take 10)

section Written

variable {s : String} {w : LocalTime}

theorem Day.read?_of_written (h : LocalTime.read? (Text.trim s.toList) = some w)
    : read? s = some w.day := by
  obtain ⟨year, month, day, c, time, offset, htext, hyear, hmonth, hday, hc, -⟩ :=
    LocalTime.read?_eq_some h
  have hcivil : readCivil? (Text.trim s.toList) = none := by
    rw [htext, readCivil?_digits hyear hmonth hday (by simp [hc])]
    rfl
  unfold read?
  dsimp only
  rw [hcivil, h]
  rfl

theorem Day.read?_dateText (h : LocalTime.read? (Text.trim s.toList) = some w)
    : read? (dateText s) = some w.day := by
  obtain ⟨year, month, day, c, time, offset, htext, hyear, hmonth, hday, -, hcivil, -⟩ :=
    LocalTime.read?_eq_some h
  have hsplit : Text.trim s.toList = (year ++ '-' :: (month ++ '-' :: (day ++ []))) ++ c :: time := by
    rw [htext]
    simp
  have hlength : (year ++ '-' :: (month ++ '-' :: (day ++ []))).length = 10 := by
    simp [hyear.length_eq, hmonth.length_eq, hday.length_eq]
  have hblank : ∀ c ∈ year ++ '-' :: (month ++ '-' :: (day ++ [])), Text.isBlank c = false := by
    have hdigits : ∀ {count ds}, IsDigits count ds → ∀ c ∈ ds, Text.isBlank c = false :=
      fun hds c hc => isBlank_of_isDigit (hds.isDigit c hc)
    simp only [List.forall_mem_append, List.forall_mem_cons]
    exact ⟨hdigits hyear, by decide, hdigits hmonth, by decide, hdigits hday, by simp⟩
  unfold read? dateText
  rw [hsplit, List.take_left' hlength, String.toList_ofList, Text.trim_of_not_blank hblank]
  dsimp only
  rw [readCivil?_digits hyear hmonth hday (by simp), List.isEmpty_nil, if_pos rfl, hcivil]
  rfl

end Written

end ObjectStore
