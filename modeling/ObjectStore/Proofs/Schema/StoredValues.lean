import ObjectStore.Filter.Compile
import ObjectStore.Proofs.Entity.Parts
import ObjectStore.Proofs.Entity.StoredTimes

/-!
This module follows a value to its document, from there back into a value, and into a comparison. It
proves that what is read back is the same as what was stored, and that it equals the operand which a
filter makes of whatever the value was cast from. Lists and documents are left out.
-/

namespace ObjectStore

namespace AttributeType

def isScalar : AttributeType → Bool
  | list | json => false
  | _ => true

variable {ty : AttributeType} {u v w : Value} {document : Json}

theorem decode_null (ty : AttributeType) : ty.decode .null = .ok .null := by
  unfold decode
  rw [if_neg (by simp [Json.isNull]), Value.ofJson]
  exact cast_null ty

theorem decode_float {x : Binary64} (h : x.isFinite = true)
    : number.decode (.number (.float x h)) = .ok (.float x) := by
  rw [decode_of_ne_json (by decide), Value.ofJson]
  exact cast_eq_ok.mpr (.inr ⟨rfl, if_pos h⟩)

/-- A value that a type holds is read back from its document, unless it is a point in time that the
notation has no room for. -/
theorem decode_toJson (hty : ty.isScalar = true) (hv : ty.cast v = .ok v)
    (hyear : ∀ t, v = .timestamp t → t.HasFourDigitYear) : ty.decode v.toJson = .ok v := by
  cases holds_of_cast hv with
  | null => exact decode_null ty
  | text | boolean => rfl
  | @integer i =>
    have hlt : i.toInt < 0x8000000000000000 := i.toInt_lt
    rw [decode_of_ne_json (by decide), Value.toJson, Value.ofJson, Value.ofJsonNumber, if_pos hlt,
      Int64.ofInt_toInt]
    rfl
  | @number x _ =>
    have hfinite := isFinite_of_cast hv
    rw [Value.toJson, JsonNumber.ofFloat?, dif_pos hfinite]
    exact decode_float hfinite
  | @day d =>
    rw [decode_of_ne_json (by decide), Value.toJson, Value.ofJson]
    exact cast_day_of_read (Day.read?_text d)
  | @datetime t => exact decode_datetime_text.mpr ⟨hyear t rfl, rfl⟩
  | list | json => cases hty

theorem same_self (hty : ty.isScalar = true) (hv : ty.Holds v) : v.same v = true := by
  cases hv with
  | null => rfl
  | number hnan => exact Binary64.same_iff.mpr ⟨hnan, hnan, rfl⟩
  | text | integer | boolean | day | datetime => exact beq_self_eq_true _
  | list | json => cases hty

theorem eq_or_float_of_same_value (hty : ty.isScalar = true) (hu : ty.Holds u) (hv : ty.Holds v)
    (h : u.same v = true) : u = v ∨ ∃ x y, u = .float x ∧ v = .float y ∧ x.same y = true := by
  cases hu with
  | null => cases hv <;> first | exact .inl rfl | cases h
  | number _ =>
    cases hv with
    | null => cases h
    | number _ => exact .inr ⟨_, _, rfl, rfl, h⟩
  | text | integer | boolean | day | datetime =>
    cases hv with
    | null => cases h
    | _ => exact .inl (congrArg _ (eq_of_beq h))
  | list | json => cases hty

theorem same_of_same (hty : ty.isScalar = true) (hu : ty.Holds u) (hv : ty.Holds v) (hw : ty.Holds w)
    (h : u.same v = true) (h' : v.same w = true) : u.same w = true := by
  obtain rfl | ⟨x, y, rfl, rfl, hxy⟩ := eq_or_float_of_same_value hty hu hv h
  . exact h'
  . obtain rfl | ⟨_, z, hy, rfl, hyz⟩ := eq_or_float_of_same_value hty hv hw h'
    . exact h
    . cases hy
      obtain ⟨hx, _, hplace⟩ := Binary64.same_iff.mp hxy
      obtain ⟨_, hz, hplace'⟩ := Binary64.same_iff.mp hyz
      exact Binary64.same_iff.mpr ⟨hx, hz, hplace.trans hplace'⟩

end AttributeType

theorem AttributeDef.read_of_document {attr : AttributeDef} {r : Record} {document : Json}
    (h : r.attributes.get? attr.name = some document) : attr.read r = attr.type.decode document := by
  unfold read
  rw [h]

theorem AttributeDef.read_congr {attr : AttributeDef} {r r' : Record}
    (h : r'.part? (.attr attr.name) = r.part? (.attr attr.name)) : attr.read r' = attr.read r := by
  have hsame : r'.attributes.get? attr.name = r.attributes.get? attr.name :=
    Option.map_injective (fun _ _ h => by injection h) h
  unfold read
  rw [hsame]

end ObjectStore
