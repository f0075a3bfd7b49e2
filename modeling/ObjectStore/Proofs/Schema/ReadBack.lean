import ObjectStore.Proofs.Schema.StoredValues

/-!
This module proves that a value which was read from a document is read again from the document that is
written for it, lists and documents included. The written document need not be the one that was read: it
may spell the value in another way.
-/

namespace ObjectStore

/-- The number is one of the integers of 64 bits that have no sign to spare. -/
def JsonNumber.isUnsigned : JsonNumber → Bool
  | .int i .. => 0x8000000000000000 ≤ i
  | .float .. => false

namespace Value

theorem ofJsonNumber_float {x : Binary64} (h : x.isFinite = true)
    : ofJson (toJson (.float x)) = .float x := by
  rw [toJson, JsonNumber.ofFloat?, dif_pos h]
  rfl

theorem ofJson_toJson_int (i : Int64) : ofJson (toJson (.int i)) = .int i := by
  have hlt : i.toInt < 0x8000000000000000 := i.toInt_lt
  rw [toJson, ofJson, ofJsonNumber, if_pos hlt, Int64.ofInt_toInt]

theorem isNumber_ofJsonNumber (n : JsonNumber) : (ofJsonNumber n).isNumber = true := by
  cases n with
  | float x finite => rfl
  | int i first_le lt_last =>
    unfold ofJsonNumber
    dsimp only
    split <;> rfl

/-- Signed integers and floats are written as the numbers that they were read from. -/
theorem toJson_ofJsonNumber {n : JsonNumber} (h : n.isUnsigned = false)
    : (ofJsonNumber n).toJson = .number n := by
  cases n with
  | float x finite =>
    rw [ofJsonNumber, toJson, JsonNumber.ofFloat?, dif_pos finite]
    rfl
  | int i first_le lt_last =>
    have hsmall : i < 0x8000000000000000 := by simpa [JsonNumber.isUnsigned] using h
    have hvalue : (Int64.ofInt i).toInt = i := Int64.toInt_ofInt_of_le first_le hsmall
    rw [ofJsonNumber, if_pos hsmall, toJson]
    simp only [hvalue]

/-- Unsigned integers become floats. -/
theorem exists_float_of_isUnsigned {n : JsonNumber} (h : n.isUnsigned = true)
    : ∃ x, ofJsonNumber n = .float x ∧ x.isFinite = true := by
  cases n with
  | float x finite => cases h
  | int i first_le lt_last =>
    have hlarge : ¬i < 0x8000000000000000 := by simpa [JsonNumber.isUnsigned] using h
    refine ⟨_, if_neg hlarge, Binary64.isFinite_ofInt ?_⟩
    omega

theorem ofJson_toJson_ofJsonNumber (n : JsonNumber)
    : ofJson (toJson (ofJsonNumber n)) = ofJsonNumber n := by
  cases h : n.isUnsigned with
  | false => rw [toJson_ofJsonNumber h, ofJson]
  | true =>
    obtain ⟨x, hx, hfinite⟩ := exists_float_of_isUnsigned h
    rw [hx, ofJsonNumber_float hfinite]

mutual

/-- What is read without knowing a type is read again from its own document. -/
theorem ofJson_toJson_ofJson (document : Json) : ofJson (ofJson document).toJson = ofJson document := by
  cases document with
  | null | bool | string | object => rfl
  | number n => exact ofJson_toJson_ofJsonNumber n
  | array items =>
    rw [ofJson, toJson, ofJson, ofJsonItems_toJsonItems_ofJsonItems items]

theorem ofJsonItems_toJsonItems_ofJsonItems (items : List Json)
    : ofJsonItems (toJsonItems (ofJsonItems items)) = ofJsonItems items := by
  cases items with
  | nil => rfl
  | cons item items =>
    rw [ofJsonItems, toJsonItems, ofJsonItems, ofJson_toJson_ofJson item,
      ofJsonItems_toJsonItems_ofJsonItems items]

end

theorem array_of_ofJson {document : Json} {items : List Value} (h : ofJson document = .array items)
    : ∃ documents, items = ofJsonItems documents := by
  cases document with
  | array documents =>
    cases h
    exact ⟨documents, rfl⟩
  | number n =>
    have hnumber := isNumber_ofJsonNumber n
    rw [ofJson] at h
    rw [h] at hnumber
    cases hnumber
  | _ => cases h

end Value

namespace AttributeType

variable {ty : AttributeType} {v : Value} {document : Json}

theorem decode_list_array (items : List Json)
    : list.decode (.array items) = .ok (.array (Value.ofJsonItems items)) := rfl

theorem array_of_decode_list {items : List Value} (h : list.decode document = .ok (.array items))
    : ∃ documents, items = Value.ofJsonItems documents := by
  rw [decode_of_ne_json (by decide), cast_eq_ok] at h
  obtain ⟨_, hnull⟩ | ⟨_, hsome⟩ := h
  . cases hnull
  . change castList? (Value.ofJson document) = some (.array items) at hsome
    unfold castList? at hsome
    split at hsome
    . next harray =>
      cases hsome
      exact Value.array_of_ofJson harray
    . cases hsome
      exact ⟨_, rfl⟩
    . cases hsome

/-- What was read of a type is read again from the document that is written for it. -/
theorem decode_toJson_of_decode (h : ty.decode document = .ok v)
    (hyear : ∀ t, v = .timestamp t → t.HasFourDigitYear) : ty.decode v.toJson = .ok v := by
  have hcast := cast_of_decode h
  cases hscalar : ty.isScalar with
  | true => exact decode_toJson hscalar hcast hyear
  | false =>
    cases holds_of_cast hcast with
    | null => exact decode_null ty
    | list =>
      obtain ⟨documents, rfl⟩ := array_of_decode_list h
      rw [Value.toJson, decode_list_array, Value.ofJsonItems_toJsonItems_ofJsonItems]
    | @json held =>
      unfold decode at h
      split at h
      . next hjson =>
        cases h
        exact if_pos hjson
      . next hnull =>
        have hnull : document.isNull = true := by simpa using hnull
        cases document <;> cases hnull
        cases h
    | _ => cases hscalar

/-- A value that a type holds can be read from the document that is written for it, if it is no point in
time that the notation has no room for. -/
theorem exists_decode_toJson_iff (hv : ty.cast v = .ok v)
    : (∃ u, ty.decode v.toJson = .ok u) ↔ ∀ t, v = .timestamp t → t.HasFourDigitYear := by
  constructor
  . rintro ⟨u, hu⟩ t rfl
    cases holds_of_cast hv
    exact (decode_datetime_text.mp hu).1
  . intro hyear
    cases hscalar : ty.isScalar with
    | true => exact ⟨v, decode_toJson hscalar hv hyear⟩
    | false =>
      cases holds_of_cast hv with
      | null => exact ⟨.null, decode_null ty⟩
      | list => exact ⟨_, decode_list_array _⟩
      | @json held =>
        cases held with
        | null => exact ⟨.null, decode_null json⟩
        | _ => exact ⟨_, rfl⟩
      | _ => cases hscalar

end AttributeType

end ObjectStore
