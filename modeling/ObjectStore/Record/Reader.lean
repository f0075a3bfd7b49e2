import ObjectStore.Record

/-!
This module reads records and write operations from documents. Fields are given by name, or one
after the other in an array.
-/

namespace ObjectStore

namespace Json

def string? : Json → Option String
  | string s => some s
  | _ => none

def fields? : Json → Option (Keyed Json)
  | object fields => some (Keyed.ofList fields)
  | _ => none

end Json

namespace Record

def readForeignId? : Json → Option (Option String)
  | .null => some none
  | .string s => some (some s)
  | _ => none

def readRelations? (document : Json) : Option (Keyed (Option String)) := do
  let fields ← document.fields?
  let entries ← fields.entries.mapM fun (name, value) => (name, ·) <$> readForeignId? value
  return Keyed.ofList entries

def ofParts? (id type : Json) (attributes belongsTo : Option Json) : Option Record := do
  let id ← id.string?
  let typeName ← type.string?
  let attributes ← attributes.elim (some .empty) Json.fields?
  let belongsTo ← belongsTo.elim (some .empty) readRelations?
  return ⟨id, typeName, attributes, belongsTo⟩

/-- Reads a record. Fields with other names do not count. -/
def ofJson? : Json → Option Record
  | .object fields =>
    let fields := Keyed.ofList fields
    match fields.get? "id", fields.get? "type" with
    | some id, some type => ofParts? id type (fields.get? "attributes") (fields.get? "belongs_to")
    | _, _ => none
  | .array [id, type] => ofParts? id type none none
  | .array [id, type, attributes] => ofParts? id type attributes none
  | .array [id, type, attributes, belongsTo] => ofParts? id type attributes belongsTo
  | _ => none

end Record

namespace WriteOp

/-- Reads an operation of the given kind from a document that may have more fields, the kind
among them. -/
def ofFields? (kind : String) (fields : Keyed Json) : Option WriteOp :=
  match kind with
  | "put" => (fields.get? "record" >>= Record.ofJson?).map put
  | "patch" => (fields.get? "record" >>= Record.ofJson?).map patch
  | "delete" => do
    return delete (← (← fields.get? "type").string?) (← (← fields.get? "id").string?)
  | _ => none

def ofParts? (kind : String) (parts : List Json) : Option WriteOp :=
  match kind, parts with
  | "put", [record] => (Record.ofJson? record).map put
  | "patch", [record] => (Record.ofJson? record).map patch
  | "delete", [type, id] => do return delete (← type.string?) (← id.string?)
  | _, _ => none

/-- Reads an operation. Its kind stands in the field `op`, or is the first part. -/
def ofJson? : Json → Option WriteOp
  | .object fields => do
    let fields := Keyed.ofList fields
    ofFields? (← (← fields.get? "op").string?) fields
  | .array (kind :: parts) => do ofParts? (← kind.string?) parts
  | _ => none

end WriteOp

end ObjectStore
