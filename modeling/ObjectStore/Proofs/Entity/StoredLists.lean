import ObjectStore.Proofs.Entity.PatchedRecord
import ObjectStore.Proofs.Value.Untyped

/-!
This module proves which lists and documents are read back from what is written for them, and which lists in
a record are the same after they were read and written. What a list holds has no type, so that its items
come back as what is read from their documents.
-/

namespace ObjectStore

namespace AttributeType

variable {ty : AttributeType} {u v : Value} {document : Json}

theorem eq_ofJson_of_decode_list (h : list.decode document = .ok v) : v = Value.ofJson document := by
  rw [decode_of_ne_json (by decide), cast_eq_ok] at h
  obtain ⟨hnull, rfl⟩ | ⟨_, hsome⟩ := h
  . cases hread : Value.ofJson document with
    | null => rfl
    | _ =>
      rw [hread] at hnull
      cases hnull
  . change castList? (Value.ofJson document) = some v at hsome
    unfold castList? at hsome
    split at hsome
    . next items hread =>
      cases hsome
      exact hread.symm
    . next items hread =>
      -- Documents that are read as they are are objects.
      cases (Value.object_of_ofJson hread).2
    . cases hsome

theorem not_timestamp_of_cast (hty : ty ∈ [list, json]) (h : ty.cast u = .ok v)
    : ∀ t, v = .timestamp t → t.HasFourDigitYear := by
  rintro t rfl
  cases holds_of_cast h
  simp at hty

theorem decode_toJson_iff (hty : ty ∈ [list, json]) (hv : ty.cast v = .ok v) (hnull : v ≠ .json .null)
    (hfinite : v.ItemsFinite) : ty.decode v.toJson = .ok v ↔ v.ItemsUntyped := by
  cases holds_of_cast hv with
  | null => exact iff_of_true (decode_null ty) (Value.itemsUntyped_of_no_list rfl)
  | @list items =>
    rw [Value.toJson, decode_list_array, Except.ok.injEq, Value.array.injEq,
      Value.ofJsonItems_toJsonItems_iff items hfinite]
  | @json held =>
    refine iff_of_true (if_pos ⟨rfl, ?_⟩) (Value.itemsUntyped_of_no_list rfl)
    cases held with
    | null => exact absurd rfl hnull
    | _ => rfl
  | _ => simp at hty

/-- What is read from a document that is the same as the one of the value, up to the sign of zeros. -/
theorem exists_decode_same_iff (hty : ty ∈ [list, json]) (hv : ty.cast v = .ok v) (hnull : v ≠ .json .null)
    (hfinite : v.ItemsFinite) (h : v.toJson.same document = true)
    : ∃ w, ty.decode document = .ok w ∧ (w.same v = true ↔ v.ItemsUntyped) := by
  cases holds_of_cast hv with
  | null =>
    cases document with
    | null => exact ⟨.null, decode_null ty, iff_of_true rfl (Value.itemsUntyped_of_no_list rfl)⟩
    | _ => cases h
  | @list items =>
    cases document with
    | array documents =>
      exact ⟨_, decode_list_array documents, Value.ofJsonItems_sameItems_iff items h hfinite⟩
    | _ => cases h
  | @json held =>
    have hsome : document.isNull = false := by
      cases document with
      | null =>
        cases held with
        | null => exact absurd rfl hnull
        | _ => cases h
      | _ => rfl
    refine ⟨.json document, if_pos ⟨rfl, hsome⟩, iff_of_true ?_ (Value.itemsUntyped_of_no_list rfl)⟩
    exact (Json.same_comm document held).trans h
  | _ => simp at hty

/-- A list or a document can always be read again, and what is read then stays the same. -/
theorem exists_decode_twice (hty : ty ∈ [list, json]) (h : ty.cast u = .ok v)
    : ∃ w, ty.decode v.toJson = .ok w ∧ ty.decode w.toJson = .ok w := by
  obtain ⟨w, hw⟩ := (exists_decode_toJson_iff (cast_cast h)).mpr (not_timestamp_of_cast hty h)
  exact ⟨w, hw, decode_toJson_of_decode hw (not_timestamp_of_cast hty (cast_of_decode hw))⟩

end AttributeType

namespace AttributeDef

theorem exists_decode_of_read {attr : AttributeDef} {r : Record} {v : Value}
    (h : attr.read r = .ok v) : ∃ document, attr.type.decode document = .ok v := by
  unfold read at h
  split at h
  . exact ⟨.null, (AttributeType.decode_null attr.type).trans h⟩
  . exact ⟨_, h⟩

/-- What is read from a record that the value was read from, or in which its document stands or one that is the
same. -/
theorem exists_read_same_iff (attr : AttributeDef) {r : Record} {v : Value} (hty : attr.type ∈ [.list, .json])
    (hv : attr.type.cast v = .ok v) (hnull : v ≠ .json .null) (hfinite : v.ItemsFinite)
    (h : attr.read r = .ok v
      ∨ ∃ document, r.attributes.get? attr.name = some document ∧ v.toJson.same document = true)
    : ∃ w, attr.read r = .ok w ∧ (w.same v = true ↔ v.ItemsUntyped) := by
  obtain hread | ⟨document, hdocument, hsame⟩ := h
  . obtain ⟨document, hdecode⟩ := exists_decode_of_read hread
    have hback := AttributeType.decode_toJson_of_decode hdecode
      (AttributeType.not_timestamp_of_cast hty hv)
    obtain ⟨w, hw, hiff⟩ := AttributeType.exists_decode_same_iff hty hv hnull hfinite (Json.same_self _)
    rw [hback] at hw
    cases hw
    exact ⟨v, hread, hiff⟩
  . rw [read_of_document hdocument]
    exact AttributeType.exists_decode_same_iff hty hv hnull hfinite hsame

end AttributeDef

/-- What is read from a document without knowing a type is written as this document if and only if none of
its numbers, but for those in objects, is an unsigned integer. The same holds for a list that an entity has
from a record. -/
theorem Json.written_back_iff (document : Json)
    : ((Value.ofJson document).toJson = document ↔ ∀ n, document.Shows n → n.isUnsigned = false)
        ∧
      ∀ (store : Store) (objectType : ObjectType) (r : Record) (name : String) (attr : AttributeDef)
        (e : Entity),
        objectType.NamesAttributes → objectType.attribute? name = some attr → attr.type = .list
            → r.attributes.get? name = some document → Entity.hydrate store objectType r = .ok e
          →
        (e.toRecord.attributes.get? name = some document
            ↔
          ∀ n, document.Shows n → n.isUnsigned = false) := by
  refine ⟨Value.toJson_ofJson_iff document, ?_⟩
  intro store objectType r name attr e hnames hattr htype hdocument hhydrate
  obtain ⟨v, hv, hget⟩ := Entity.get?_of_hydrate hnames hhydrate hattr
  rw [← hnames name attr hattr] at hdocument
  rw [AttributeDef.read_of_document hdocument, htype] at hv
  rw [Entity.document_of_toRecord hget, AttributeType.eq_ofJson_of_decode_list hv, Option.some.injEq,
    Value.toJson_ofJson_iff]

/-- A chest has any number of sizes, of any kind. -/
def chestType : ObjectType :=
  (ObjectType.ofName "chest").addAttribute { name := "sizes", type := .list }

theorem namesAttributes_chestType : chestType.NamesAttributes :=
  (ObjectType.namesAttributes_ofName "chest").addAttribute _

def largest : JsonNumber := .int 0xFFFFFFFFFFFFFFFF (by decide) (by decide)

/-- The size one, and an object in which the largest number stands. -/
def chestDocument : Json :=
  .array [.number (.int 1 (by decide) (by decide)), .object [("largest", .number largest)]]

def chestRecord : Record :=
  { id := "c", typeName := "chest", belongsTo := .empty
    attributes := Keyed.empty.insert "sizes" chestDocument }

theorem Json.written_back_of_chest
    : ∃ e, Entity.hydrate default chestType chestRecord = .ok e
        ∧ e.toRecord.attributes.get? "sizes" = some chestDocument := by
  have hsigned : ∀ n, chestDocument.Shows n → n.isUnsigned = false := by
    apply (Json.written_back_iff chestDocument).1.mp
    rfl
  obtain ⟨e, he⟩ : ∃ e, Entity.hydrate default chestType chestRecord = .ok e := ⟨_, rfl⟩
  have hsizes := (Json.written_back_iff chestDocument).2 default chestType chestRecord "sizes"
    { name := "sizes", type := .list } e namesAttributes_chestType rfl rfl rfl he
  exact ⟨e, he, hsizes.mpr hsigned⟩

/-- The largest number is written as the float next to it. -/
theorem Json.not_written_back_of_largest
    : (Value.ofJson (.array [.number largest])).toJson
          = .array [.number (.float ⟨false, 0x43F0000000000000, by decide⟩ (by decide))]
        ∧
      (Value.ofJson (.array [.number largest])).toJson
          ≠ .array [.number largest] := by
  have hwritten : (Value.ofJson (.array [.number largest])).toJson
      = .array [.number (.float ⟨false, 0x43F0000000000000, by decide⟩ (by decide))] := rfl
  refine ⟨hwritten, ?_⟩
  rw [hwritten]
  intro h
  cases h

end ObjectStore
