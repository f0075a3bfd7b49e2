import ObjectStore.Proofs.Binary64.Rounding
import ObjectStore.Proofs.Value.SortOrder

/-!
This module proves that a value that was cast into a type or read from a document stays the same when it
is cast into the type again, and which values these are.
-/

namespace ObjectStore

namespace AttributeType

theorem isFinite_of_castNumber? {v : Value} {x : Binary64} (h : castNumber? v = some (.float x))
    : x.isFinite = true := by
  unfold castNumber? at h
  split at h
  . next i =>
    cases h
    apply Binary64.isFinite_ofInt
    have hmin := i.le_toInt
    have hmax := i.toInt_lt
    omega
  . split at h
    . next hfinite =>
      cases h
      exact hfinite
    . cases h
  . obtain ⟨y, hy, heq⟩ := Option.map_eq_some_iff.mp h
    cases heq
    exact (Option.filter_eq_some_iff.mp hy).2
  . cases h

variable {ty : AttributeType} {v w : Value}

theorem cast_eq_ok
    : ty.cast v = .ok w
        ↔
      v.isNull = true ∧ w = .null ∨ v.isNull = false ∧ castSome? ty v = some w := by
  unfold cast
  cases v.isNull with
  | true => simp [eq_comm]
  | false => cases castSome? ty v <;> simp

theorem cast_day_of_read {s : String} {d : Day} (h : Day.read? s = some d)
    : day.cast (.string s) = .ok (.day d) := by
  refine cast_eq_ok.mpr (.inr ⟨rfl, ?_⟩)
  unfold castSome? castDay?
  dsimp only
  rw [h, Option.map_some]

theorem isFinite_of_cast {x : Binary64} (h : number.cast v = .ok (.float x)) : x.isFinite = true := by
  obtain ⟨_, hnull⟩ | ⟨_, hsome⟩ := cast_eq_ok.mp h
  . cases hnull
  . exact isFinite_of_castNumber? hsome

/-- The values that a type leaves as they are. -/
theorem cast_self_iff : ty.cast v = .ok v ↔ ty.Holds v ∧ ∀ x, v = .float x → x.isFinite = true := by
  constructor
  . intro h
    refine ⟨holds_of_cast h, ?_⟩
    rintro x rfl
    cases holds_of_cast h
    exact isFinite_of_cast h
  . rintro ⟨hholds, hfinite⟩
    cases hholds with
    | number _ => exact cast_eq_ok.mpr (.inr ⟨rfl, if_pos (hfinite _ rfl)⟩)
    | _ => rfl

theorem cast_cast (h : ty.cast v = .ok w) : ty.cast w = .ok w := by
  refine cast_self_iff.mpr ⟨holds_of_cast h, ?_⟩
  rintro x rfl
  cases holds_of_cast h
  exact isFinite_of_cast h

theorem cast_of_decode {document : Json} (h : ty.decode document = .ok w) : ty.cast w = .ok w := by
  unfold decode at h
  split at h
  . next hjson =>
    cases h
    rw [hjson.1]
    rfl
  . exact cast_cast h

/-- A type leaves as it is whatever it made of a value or read from a document. These are null and the values
of its kind, but for the floats that are not finite. -/
theorem cast_leaves_results (ty : AttributeType)
    : (∀ u v, ty.cast u = .ok v → ty.cast v = .ok v)
        ∧
      (∀ document v, ty.decode document = .ok v → ty.cast v = .ok v)
        ∧
      ∀ v, ty.cast v = .ok v ↔ ty.Holds v ∧ ∀ x, v = .float x → x.isFinite = true := by
  refine ⟨?_, ?_, ?_⟩
  . intro u v h
    exact cast_cast h
  . intro document v h
    exact cast_of_decode h
  . intro v
    exact cast_self_iff

/-- What is no number becomes a document, and the largest unsigned integer becomes a float. -/
theorem cast_leaves_results_of_numbers
    : (∃ v, json.cast (.float (.nan false)) = .ok v ∧ json.cast v = .ok v)
        ∧
      ∃ v, number.decode (.number (.int 0xFFFFFFFFFFFFFFFF (by decide) (by decide))) = .ok v
        ∧ number.cast v = .ok v := by
  have hdocument : json.cast (.float (.nan false)) = .ok (.json .null) := rfl
  have hfloat : number.decode (.number (.int 0xFFFFFFFFFFFFFFFF (by decide) (by decide)))
      = .ok (.float (Binary64.ofInt 0xFFFFFFFFFFFFFFFF)) := by
    change number.cast (.float (Binary64.ofInt 0xFFFFFFFFFFFFFFFF)) = _
    refine cast_self_iff.mpr ⟨.number (isNaN_ofInt _), ?_⟩
    intro x hx
    rw [← Value.float.inj hx]
    exact Binary64.isFinite_ofInt (by decide)
  refine ⟨⟨_, hdocument, ?_⟩, ⟨_, hfloat, ?_⟩⟩
  . exact (cast_leaves_results json).1 _ _ hdocument
  . exact (cast_leaves_results number).2.1 _ _ hfloat

end AttributeType

end ObjectStore
