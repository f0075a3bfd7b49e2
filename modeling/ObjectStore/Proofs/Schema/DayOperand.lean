import ObjectStore.Proofs.Calendar.DateOrder
import ObjectStore.Proofs.Calendar.WrittenDay
import ObjectStore.Proofs.Schema.Cast

/-!
This module compares points in time with days. It proves that a day equals the points in time from its first
second on until the next day begins, and with which days the text of a point in time is compared.
-/

namespace ObjectStore

theorem Day.compare_number (c d : Day) : compare c.number d.number = c.civil.compareDates d.civil := by
  have hcompare := Civil.compare_dayNumber (Civil.valid_ofDayNumber c.number)
    (Civil.valid_ofDayNumber d.number)
  rw [Civil.dayNumber_ofDayNumber, Civil.dayNumber_ofDayNumber] at hcompare
  exact hcompare

/-- Which days tell two days apart that are the same or next to each other: none but these two. -/
theorem Day.compare_eq_iff_of_near {c e : Day} (hnear : c.number ≤ e.number + 1 ∧ e.number ≤ c.number + 1)
    (d : Day)
    : compare c.number d.number = compare e.number d.number ↔ c = e ∨ d ≠ c ∧ d ≠ e := by
  simp only [ne_eq, ← Day.number_inj, Int.compare_eq_ite_lt]
  grind

namespace Timestamp

theorem number_day (t : Timestamp) : t.day.number = t.epochSeconds / 86400 := by
  have hsecond := t.second_lt
  unfold epochSeconds
  omega

/-- A point in time lies before a day, in it or after it as its seconds do. -/
theorem compare_day (t : Timestamp) (d : Day)
    : compare t.day.number d.number
        =
      if t.epochSeconds < (startOf d).epochSeconds then .lt
      else if t.epochSeconds < (startOf d).epochSeconds + 86400 then .eq
      else .gt := by
  have hsecond := t.second_lt
  rw [epochSeconds_startOf, Int.compare_eq_ite_lt]
  unfold epochSeconds
  grind

end Timestamp

theorem Value.compare_text_day {s : String} {c : Day} (h : Day.read? s = some c) (d : Day)
    : (string s).compare? (.day d) = some (compare c.number d.number) := by
  unfold compare? compareDays? day?
  dsimp only
  rw [h]

namespace AttributeType

theorem read_of_cast_datetime {s : String} {t : Timestamp}
    (h : datetime.cast (.string s) = .ok (.timestamp t))
    : ∃ w, LocalTime.read? (Text.trim s.toList) = some w ∧ w.utc? = some t := by
  obtain ⟨hnull, -⟩ | ⟨-, hsome⟩ := cast_eq_ok.mp h
  . cases hnull
  . unfold castSome? castDatetime? Timestamp.read? at hsome
    simpa [Option.bind_eq_some_iff] using hsome

/-- A point in time is compared with a day by its whole seconds: those of the day are the ones from its start
on until a day later. That is the order of the two dates in the calendar. Both casts between the day and its
start go back and forth. -/
theorem day_operand_selects_day (t : Timestamp) (d : Day)
    : ∃ m : Timestamp, datetime.cast (.day d) = .ok (.timestamp m)
        ∧ day.cast (.timestamp m) = .ok (.day d)
        ∧ m.epochSeconds = d.civil.dayNumber * 86400
        ∧ (Value.timestamp t).compare? (.day d)
            =
          some (if t.epochSeconds < m.epochSeconds then .lt
            else if t.epochSeconds < m.epochSeconds + 86400 then .eq
            else .gt)
        ∧ (Value.timestamp t).compare? (.day d)
            =
          some ((Civil.ofDayNumber (t.epochSeconds / 86400)).compareDates d.civil) := by
  have hcompare : (Value.timestamp t).compare? (.day d) = some (compare t.day.number d.number) := rfl
  refine ⟨Timestamp.startOf d, rfl, rfl, ?_, ?_, ?_⟩
  . rw [Timestamp.epochSeconds_startOf, Day.civil, Civil.dayNumber_ofDayNumber]
  . rw [hcompare, Timestamp.compare_day]
  . rw [hcompare, Day.compare_number, ← Timestamp.number_day, Day.civil]

/-- The text of a point in time stands for the day whose date is written in it, and a point in time for its
day in UTC. These are one day where the offset does not carry the time of the day across midnight, and it
never does in UTC. Otherwise these two days, and no others, tell the text and the point in time apart. -/
theorem written_day_iff {s : String} {t : Timestamp} (h : datetime.cast (.string s) = .ok (.timestamp t))
    : ∃ w : LocalTime, LocalTime.read? (Text.trim s.toList) = some w
        ∧ w.utc? = some t
        ∧ (w.offset = 0 → w.KeepsDay)
        ∧ day.cast (.string s) = .ok (.day w.day)
        ∧ day.cast (.string (dateText s)) = .ok (.day w.day)
        ∧ (day.cast (.string s) = day.cast (.timestamp t) ↔ w.KeepsDay)
        ∧ ∀ d, (Value.string s).compare? (.day d) = (Value.day w.day).compare? (.day d)
            ∧ ((Value.string s).compare? (.day d) = (Value.timestamp t).compare? (.day d)
                ↔
              w.KeepsDay ∨ d ≠ w.day ∧ d ≠ t.day) := by
  obtain ⟨w, hread, hutc⟩ := read_of_cast_datetime h
  obtain ⟨_, _, _, _, _, _, -, -, -, -, -, -, htime, hoffset⟩ := LocalTime.read?_eq_some hread
  have hsecond := takeTimeOfDay?_lt htime
  have hwritten := Day.read?_of_written hread
  have hcast := cast_day_of_read hwritten
  have hsame := LocalTime.day_eq_iff_keepsDay hutc
  refine ⟨w, hread, hutc, ?_, hcast, cast_day_of_read (Day.read?_dateText hread), ?_, ?_⟩
  . unfold LocalTime.KeepsDay
    omega
  . have hutcDay : day.cast (.timestamp t) = .ok (.day t.day) := rfl
    rw [hcast, hutcDay, ← hsame]
    simp
  . intro d
    have hutcDay : (Value.timestamp t).compare? (.day d) = some (compare t.day.number d.number) := rfl
    have hcompare := Value.compare_text_day hwritten d
    refine ⟨hcompare, ?_⟩
    rw [hcompare, hutcDay, Option.some_inj, ← hsame]
    exact Day.compare_eq_iff_of_near (LocalTime.day_near hsecond (takeOffset?_bounds hoffset) hutc) d

/-- The first of March 2020. -/
def firstOfMarch : Day :=
  ⟨18322, by decide, by decide⟩

/-- Ten o'clock in the morning, five and a half hours ahead of UTC. -/
theorem written_day_of_morning
    : datetime.cast (.string "2020-03-01T10:00:00+05:30")
        = .ok (.timestamp ⟨firstOfMarch, 16200, 0, by decide, by decide, by decide⟩)
      ∧ day.cast (.string "2020-03-01T10:00:00+05:30") = .ok (.day firstOfMarch)
      ∧ ∀ d, (Value.string "2020-03-01T10:00:00+05:30").compare? (.day d)
          =
        (Value.timestamp ⟨firstOfMarch, 16200, 0, by decide, by decide, by decide⟩).compare? (.day d) := by
  have hcast : datetime.cast (.string "2020-03-01T10:00:00+05:30")
      = .ok (.timestamp ⟨firstOfMarch, 16200, 0, by decide, by decide, by decide⟩) := rfl
  have hday : day.cast (.string "2020-03-01T10:00:00+05:30") = .ok (.day firstOfMarch) :=
    cast_day_of_read (by decide +kernel)
  obtain ⟨w, -, -, -, -, -, hsame, hcompare⟩ := written_day_iff hcast
  exact ⟨hcast, hday, fun d => (hcompare d).2.mpr (.inl (hsame.mp hday))⟩

/-- Half past eleven in the evening of the leap day before, two hours behind UTC. -/
theorem day_not_kept_of_evening
    : ∃ t, datetime.cast (.string "2020-02-29T23:30:00-02:00") = .ok (.timestamp t)
        ∧ (Value.string "2020-02-29T23:30:00-02:00").compare? (.day firstOfMarch) = some .lt
        ∧ (Value.timestamp t).compare? (.day firstOfMarch) = some .eq
        ∧ day.cast (.string "2020-02-29T23:30:00-02:00") ≠ day.cast (.timestamp t) := by
  have hwritten : Day.read? "2020-02-29T23:30:00-02:00" = some ⟨18321, by decide, by decide⟩ := by
    decide +kernel
  refine ⟨⟨firstOfMarch, 5400, 0, by decide, by decide, by decide⟩, rfl, ?_, rfl, ?_⟩
  . rw [Value.compare_text_day hwritten]
    rfl
  . rw [cast_day_of_read hwritten]
    intro h
    cases h

end AttributeType

end ObjectStore
