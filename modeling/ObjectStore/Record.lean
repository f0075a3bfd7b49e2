import ObjectStore.Json

/-!
This module contains records, the stored form of objects, and the operations that write them.
-/

namespace ObjectStore

structure Record where
  id : String
  typeName : String
  attributes : Keyed Json
  belongsTo : Keyed (Option String)

namespace Record

def ofId (typeName id : String) : Record :=
  ⟨id, typeName, .empty, .empty⟩

instance : Inhabited Record := ⟨ofId "" ""⟩

def withAttribute (r : Record) (name : String) (document : Json) : Record :=
  { r with attributes := r.attributes.insert name document }

def withRelation (r : Record) (name : String) (id : Option String) : Record :=
  { r with belongsTo := r.belongsTo.insert name id }

def relationId? (r : Record) (name : String) : Option String :=
  (r.belongsTo.get? name).join

def merge (r patch : Record) : Record :=
  { r with
    attributes := r.attributes.merge patch.attributes
    belongsTo := r.belongsTo.merge patch.belongsTo }

@[simp]
theorem merge_id (r patch : Record) : (r.merge patch).id = r.id := rfl

@[simp]
theorem merge_typeName (r patch : Record) : (r.merge patch).typeName = r.typeName := rfl

end Record

inductive WriteOp where
  | put (record : Record)
  | patch (record : Record)
  | delete (typeName id : String)

namespace WriteOp

def typeName : WriteOp → String
  | put record | patch record => record.typeName
  | delete typeName _ => typeName

def id : WriteOp → String
  | put record | patch record => record.id
  | delete _ id => id

def isDelete : WriteOp → Bool
  | delete .. => true
  | _ => false

end WriteOp

end ObjectStore
