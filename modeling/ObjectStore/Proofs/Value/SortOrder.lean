import ObjectStore.Adapter.Sort

/-!
This module proves that results can be sorted by every field that is no list. Such a field reads
values of one kind only, and on each kind the order of sorted results is the order of a place or of
a caption.
-/

namespace ObjectStore

namespace AttributeType

/-- The values of a type: null and those of one kind. -/
inductive Holds : AttributeType → Value → Prop where
  | null {ty : AttributeType} : Holds ty .null
  | text {s : String} : Holds text (.string s)
  | integer {i : Int64} : Holds integer (.int i)
  | number {x : Binary64} (h : x.isNaN = false) : Holds number (.float x)
  | boolean {b : Bool} : Holds boolean (.bool b)
  | day {d : Day} : Holds day (.day d)
  | datetime {t : Timestamp} : Holds datetime (.timestamp t)
  | list {items : List Value} : Holds list (.array items)
  | json {document : Json} : Holds json (.json document)

theorem isNaN_ofInt (i : Int) : (Binary64.ofInt i).isNaN = false := by
  unfold Binary64.ofInt Binary64.ofRatio Binary64.ofMagnitude Binary64.isNaN
  simp only [decide_eq_false_iff_not, Nat.not_lt]
  apply Nat.min_le_right

theorem holds_of_castSome? {ty : AttributeType} {v w : Value} (h : castSome? ty v = some w)
    : ty.Holds w := by
  cases ty with
  | text =>
    change castText? v = some w at h
    unfold castText? at h
    split at h <;> cases h <;> constructor
  | integer =>
    change castInteger? v = some w at h
    unfold castInteger? at h
    split at h
    . cases h
      constructor
    . obtain ⟨i, _, rfl⟩ := Option.map_eq_some_iff.1 h
      constructor
    . obtain ⟨i, _, rfl⟩ := Option.map_eq_some_iff.1 h
      constructor
    . cases h
  | number =>
    change castNumber? v = some w at h
    unfold castNumber? at h
    split at h
    . cases h
      constructor
      apply isNaN_ofInt
    . split at h
      . next hfinite =>
        cases h
        constructor
        apply Binary64.isNaN_eq_false_of_isFinite
        exact hfinite
      . cases h
    . obtain ⟨x, hx, rfl⟩ := Option.map_eq_some_iff.1 h
      constructor
      apply Binary64.isNaN_eq_false_of_isFinite
      exact (Option.filter_eq_some_iff.1 hx).2
    . cases h
  | boolean =>
    change castBoolean? v = some w at h
    unfold castBoolean? at h
    split at h
    . cases h
      constructor
    . split at h
      . cases h
        constructor
      . split at h <;> cases h
        constructor
    . dsimp only at h
      split at h
      . cases h
        constructor
      . split at h <;> cases h
        constructor
    . cases h
  | day =>
    change castDay? v = some w at h
    unfold castDay? at h
    split at h
    . cases h
      constructor
    . cases h
      constructor
    . obtain ⟨d, _, rfl⟩ := Option.map_eq_some_iff.1 h
      constructor
    . cases h
  | datetime =>
    change castDatetime? v = some w at h
    unfold castDatetime? at h
    split at h
    . cases h
      constructor
    . cases h
      constructor
    . obtain ⟨t, _, rfl⟩ := Option.map_eq_some_iff.1 h
      constructor
    . cases h
  | list =>
    change castList? v = some w at h
    unfold castList? at h
    split at h <;> cases h <;> constructor
  | json =>
    change castJson? v = some w at h
    unfold castJson? at h
    split at h <;> cases h <;> constructor

theorem holds_of_cast {ty : AttributeType} {v w : Value} (h : ty.cast v = .ok w) : ty.Holds w := by
  unfold cast at h
  split at h
  . cases h
    exact .null
  . split at h
    . next hcast =>
      cases h
      exact holds_of_castSome? hcast
    . cases h

theorem holds_of_decode {ty : AttributeType} {document : Json} {w : Value}
    (h : ty.decode document = .ok w) : ty.Holds w := by
  unfold decode at h
  split at h
  . next hjson =>
    cases h
    rw [hjson.1]
    constructor
  . exact holds_of_cast h

end AttributeType

namespace Value

/-- The place of a value among those of its kind, where the kind is ordered by numbers. -/
def place? : Value → Option Int
  | int i => some i.toInt
  | float x => some x.place
  | bool b => some b.toNat
  | day d => some d.number
  | timestamp t => some t.epochSeconds
  | _ => none

/-- The text by which a value is ordered among those of its kind, if it is ordered by a text. -/
def caption? : Value → Option String
  | string s => some (Text.lowercase s)
  | json document => some document.text
  | _ => none

end Value

namespace AttributeType

def hasCaptions : AttributeType → Bool
  | text | json => true
  | _ => false

theorem sortCompare_eq_compare_caption? {ty : AttributeType} {a b : Value}
    (hty : ty.hasCaptions = true) (ha : ty.Holds a) (hb : ty.Holds b)
    : a.sortCompare b = compare a.caption? b.caption? := by
  cases ty with
  | text | json => cases ha <;> cases hb <;> rfl
  | integer | number | boolean | day | datetime | list => cases hty

theorem sortCompare_eq_compare_place? {ty : AttributeType} {a b : Value}
    (hty : ty.hasCaptions = false) (hlist : ty ≠ .list) (ha : ty.Holds a) (hb : ty.Holds b)
    : a.sortCompare b = compare a.place? b.place? := by
  cases ty with
  | text | json => cases hty
  | list => exact absurd rfl hlist
  | integer | day | datetime => cases ha <;> cases hb <;> rfl
  | number =>
    cases ha with
    | null => cases hb <;> rfl
    | number hx =>
      cases hb with
      | null => rfl
      | number hy =>
        simp only [Value.sortCompare, Value.sortCompareScalars, Value.compare?,
          Value.compareNumbers?, Value.float?, Binary64.compare?, hx, hy]
        rfl
  | boolean =>
    cases ha with
    | null => cases hb <;> rfl
    | @boolean x =>
      cases hb with
      | null => rfl
      | @boolean y => cases x <;> cases y <;> rfl

end AttributeType

namespace Field

def type : Field → AttributeType
  | id | relation _ => .text
  | attr _ type => type

theorem holds_read (f : Field) (r : Record) : f.type.Holds (f.read r) := by
  cases f with
  | id => exact .text
  | relation name =>
    unfold read
    dsimp only
    cases r.relationId? name with
    | none => exact .null
    | some id => exact .text
  | attr name type =>
    unfold read
    dsimp only
    cases r.attributes.get? name with
    | none => exact .null
    | some document =>
      dsimp only
      cases hdecode : type.decode document with
      | error e => exact .null
      | ok v => exact AttributeType.holds_of_decode hdecode

/-- The values of a field that is no list are put into a total preorder. -/
theorem transCmp_sortCompare (f : Field) (h : f.type ≠ .list)
    : Std.TransCmp fun a b => (f.read a).sortCompare (f.read b) := by
  cases htype : f.type.hasCaptions with
  | true =>
    have hcaption : (fun a b => (f.read a).sortCompare (f.read b))
        = compareOn fun r => (f.read r).caption? := by
      funext a b
      apply AttributeType.sortCompare_eq_compare_caption? htype
      . apply holds_read
      . apply holds_read
    rw [hcaption]
    infer_instance
  | false =>
    have hplace : (fun a b => (f.read a).sortCompare (f.read b))
        = compareOn fun r => (f.read r).place? := by
      funext a b
      apply AttributeType.sortCompare_eq_compare_place? htype h
      . apply holds_read
      . apply holds_read
    rw [hplace]
    infer_instance

end Field

end ObjectStore
