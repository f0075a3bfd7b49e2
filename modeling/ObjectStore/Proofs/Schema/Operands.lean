import ObjectStore.Filter.Compile
import ObjectStore.Proofs.Except
import ObjectStore.Proofs.Schema.Cast

/-!
This module contains the operands that the values of a type are compared with. It proves that a filter has
no other operands, and that comparison puts every value of a type in order with each of its operands, but
for the types that have no order.
-/

namespace ObjectStore

namespace AttributeType

/-- The types whose values are ordered. -/
def isOrdered : AttributeType → Bool
  | boolean | list | json => false
  | _ => true

/-- What a filter compares the values of a type with: values of the type, a float for integers, and a day
for timestamps. -/
inductive Bounds : AttributeType → Value → Prop where
  | of_holds {ty : AttributeType} {v : Value} (h : ty.Holds v) : Bounds ty v
  | float {x : Binary64} (h : x.isNaN = false) : Bounds integer (.float x)
  | day {d : Day} : Bounds datetime (.day d)

variable {ty : AttributeType} {v w : Value}

theorem exists_compare?_floats {x y : Binary64} (hx : x.isNaN = false) (hy : y.isNaN = false)
    : ∃ o, x.compare? y = some o := by
  unfold Binary64.compare?
  rw [hx, hy]
  exact ⟨_, rfl⟩

theorem Holds.exists_compare? (hordered : ty.isOrdered = true) (hv : ty.Holds v) (hw : ty.Holds w)
    : ∃ o, v.compare? w = some o := by
  cases hv with
  | null => cases hw <;> exact ⟨_, rfl⟩
  | text | integer | day | datetime => cases hw <;> exact ⟨_, rfl⟩
  | number hx =>
    cases hw with
    | null => exact ⟨_, rfl⟩
    | number hy => exact exists_compare?_floats hx hy
  | boolean | list | json => cases hordered

/-- A value and an operand of one type always have an order. -/
theorem Bounds.exists_compare? (hordered : ty.isOrdered = true) (hv : ty.Holds v) (hw : ty.Bounds w)
    : ∃ o, v.compare? w = some o := by
  cases hw with
  | of_holds hw => exact hv.exists_compare? hordered hw
  | float hx =>
    cases hv with
    | null => exact ⟨_, rfl⟩
    | integer => exact exists_compare?_floats (isNaN_ofInt _) hx
  | day => cases hv <;> exact ⟨_, rfl⟩

theorem bounds_integer_of_cast_number (h : number.cast v = .ok w) : integer.Bounds w := by
  cases holds_of_cast h with
  | null => exact .of_holds .null
  | number hx => exact .float hx

theorem bounds_datetime_of_cast_day (h : day.cast v = .ok w) : datetime.Bounds w := by
  cases holds_of_cast h with
  | null => exact .of_holds .null
  | day => exact .day

end AttributeType

/-- Whatever the argument is, the operand that is made of it bounds the values of the field. -/
theorem Field.bounds_of_bindScalar {f : Field} {v w : Value} (h : f.bindScalar v = .ok w)
    : f.type.Bounds w := by
  unfold bindScalar at h
  split at h
  . next name ty =>
    split at h
    . cases h
      exact .day
    . split at h
      . next hcast =>
        cases h
        exact .of_holds (AttributeType.holds_of_cast hcast)
      . dsimp only at h
        split at h
        . next hwider =>
          cases h
          split at hwider
          . exact AttributeType.bounds_integer_of_cast_number (eq_ok_of_toOption hwider)
          . exact AttributeType.bounds_datetime_of_cast_day (eq_ok_of_toOption hwider)
          . cases hwider
        . cases h
  . next hattr =>
    have htype : f.type = .text := by
      cases f with
      | attr name ty => exact absurd rfl (hattr name ty)
      | _ => rfl
    rw [htype]
    split at h
    . cases h
      exact .of_holds .text
    . cases h
      exact .of_holds .null
    . cases h

end ObjectStore
