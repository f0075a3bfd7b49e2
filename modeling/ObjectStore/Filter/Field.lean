import ObjectStore.Filter.Error
import ObjectStore.Record
import ObjectStore.Schema.ObjectType

/-!
This module contains the fields that filters and orders refer to, and how they are read from records.
-/

namespace ObjectStore

inductive Field where
  | id
  | attr (name : String) (type : AttributeType)
  | relation (name : String)
deriving DecidableEq, Repr

namespace Field

def idName : String := "id"

/-- The field that a name stands for. Attributes come before relationships, and these before the
id. -/
def resolve (scope : ObjectType) (name : String) : Except CompileFault Field :=
  match scope.attribute? name with
  | some a => .ok (attr a.name a.type)
  | none =>
    if (scope.belongsTo? name).isSome then .ok (relation name)
    else if name = idName then .ok id
    else if (scope.hasMany? name).isSome then .error (.hasManyFilter scope.name name)
    else .error (.unknownAttribute scope.name name)

def name : Field → String
  | id => idName
  | attr name _ => name
  | relation name => name

/-- The value of the field in a record. A stored document that the type does not hold counts as
null. -/
def read (f : Field) (r : Record) : Value :=
  match f with
  | id => .string r.id
  | relation name => ((r.relationId? name).map .string).getD .null
  | attr name type =>
    match r.attributes.get? name with
    | some document => (type.decode document).toOption.getD .null
    | none => .null

end Field

end ObjectStore
