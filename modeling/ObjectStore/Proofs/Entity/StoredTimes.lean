import ObjectStore.Proofs.Calendar.RoundTrip
import ObjectStore.Proofs.Entity.Hydration
import ObjectStore.Proofs.Schema.Cast

/-!
This module proves which points in time can be stored: those that are read back from their documents
are the ones in the years with four digits. All others keep an entity from being read again.
-/

namespace ObjectStore

namespace AttributeType

variable {v : Value}

theorem decode_of_ne_json {ty : AttributeType} (h : ty ≠ json) (document : Json)
    : ty.decode document = ty.cast (Value.ofJson document) := by
  unfold decode
  rw [if_neg fun hjson => h hjson.1]

theorem cast_datetime_text {t : Timestamp}
    : datetime.cast (.string t.text) = .ok v ↔ t.HasFourDigitYear ∧ v = .timestamp t := by
  rw [cast_eq_ok]
  unfold castSome? castDatetime?
  dsimp only
  rw [Timestamp.read?_text]
  split
  . next h => simp [h, Value.isNull, eq_comm]
  . next h => simp [h, Value.isNull]

theorem decode_datetime_text {t : Timestamp}
    : datetime.decode (.string t.text) = .ok v ↔ t.HasFourDigitYear ∧ v = .timestamp t := by
  rw [decode_of_ne_json (by decide), Value.ofJson, cast_datetime_text]

end AttributeType

end ObjectStore
