import ObjectStore.Query.Basic

/-!
This module contains entities, objects in memory: their attributes, their relationships, and which of
them have been changed since they were last written.
-/

namespace ObjectStore

abbrev LoadRef := Nat

/-- What is known of the object that a relationship points at. Where nothing is known, the entity has
no link of the name. -/
inductive Link where
  | loading (load : LoadRef)
  | resolved (target : Option EntityRef)
deriving DecidableEq, Repr

structure Entity where
  id : String
  objectType : ObjectType
  store : Store
  attributes : Keyed Value
  dirtyAttributes : Names
  foreignIds : Keyed (Option String)
  links : Keyed Link
  dirtyRelations : Names
  hasMany : Keyed Query
  persisted : Bool
  destroyed : Bool

namespace Entity

def bare (store : Store) (objectType : ObjectType) (id : String) (persisted : Bool) : Entity :=
  { id, objectType, store, persisted
    attributes := .empty
    dirtyAttributes := .empty
    foreignIds := .empty
    links := .empty
    dirtyRelations := .empty
    hasMany := .empty
    destroyed := false }

instance : Inhabited Entity := ⟨bare default default "" false⟩

def typeName (e : Entity) : String :=
  e.objectType.name

def identity (e : Entity) : Identity :=
  ⟨e.typeName, e.id⟩

def decodeAttributes (objectType : ObjectType) (r : Record) : Except StoreError (Keyed Value) :=
  objectType.attributes.values.foldlM (fun values attr =>
    match r.attributes.get? attr.name with
    | none => .ok (values.insert attr.name .null)
    | some document =>
      match attr.type.decode document with
      | .ok v => .ok (values.insert attr.name v)
      | .error e => .error (.cast (e.forAttribute attr.name))) .empty

def decodeForeignIds (objectType : ObjectType) (r : Record) : Keyed (Option String) :=
  objectType.belongsTo.map fun name _ => r.relationId? name

def decode (objectType : ObjectType) (r : Record) :
    Except StoreError (Keyed Value × Keyed (Option String)) :=
  if r.typeName ≠ objectType.name then
    .error (.typeMismatch objectType.name r.typeName)
  else
    match decodeAttributes objectType r with
    | .ok values => .ok (values, decodeForeignIds objectType r)
    | .error e => .error e

def create (store : Store) (objectType : ObjectType) (id : String) : Entity :=
  { bare store objectType id false with
    attributes := .ofList (objectType.attributes.values.map fun attr => (attr.name, attr.default))
    foreignIds := objectType.belongsTo.map fun _ _ => none }

def hydrate (store : Store) (objectType : ObjectType) (r : Record) : Except StoreError Entity :=
  match decode objectType r with
  | .ok (attributes, foreignIds) =>
    .ok { bare store objectType r.id true with attributes, foreignIds }
  | .error e => .error e

def get (e : Entity) (name : String) : Except StoreError Value :=
  match e.attributes.get? name with
  | some v => .ok v
  | none =>
    if name = Field.idName then .ok (.string e.id)
    else .error (.unknownAttribute e.typeName name)

/-- Sets an attribute to a value, cast into its type. The attribute is changed only if the value is
another one than before. -/
def set (e : Entity) (name : String) (v : Value) : Except StoreError Entity :=
  match e.objectType.attribute? name with
  | none => .error (.unknownAttribute e.typeName name)
  | some attr =>
    match attr.type.cast v with
    | .error err => .error (.cast (err.forAttribute name))
    | .ok v =>
      if (e.attributes.get? name).any (·.same v) then
        .ok e
      else
        .ok { e with
          attributes := e.attributes.insert name v
          dirtyAttributes := e.dirtyAttributes.add name }

def isDirty (e : Entity) : Bool :=
  !e.destroyed && (!e.persisted || !e.dirtyAttributes.isEmpty || !e.dirtyRelations.isEmpty)

def toRecord (e : Entity) : Record :=
  { id := e.id
    typeName := e.typeName
    attributes := e.attributes.map fun _ v => v.toJson
    belongsTo := e.foreignIds }

def toPatch (e : Entity) : Record :=
  { id := e.id
    typeName := e.typeName
    attributes :=
      (e.attributes.filter fun name _ => e.dirtyAttributes.contains name).map fun _ v => v.toJson
    belongsTo := e.foreignIds.filter fun name _ => e.dirtyRelations.contains name }

/-- Replaces the attributes by those of a record, and with them the relationships that were not
changed. What is known of the objects of these is forgotten. -/
def rehydrate (e : Entity) (r : Record) : Except StoreError Entity :=
  match decode e.objectType r with
  | .error err => .error err
  | .ok (attributes, foreignIds) =>
    let unchanged := foreignIds.filter fun name _ => !e.dirtyRelations.contains name
    .ok { e with
      attributes
      dirtyAttributes := .empty
      foreignIds := e.foreignIds.merge unchanged
      links := e.links.filter fun name _ => !unchanged.contains name
      hasMany := .empty
      persisted := true }

def attributeSent (e : Entity) (sent : Record) (name : String) : Bool :=
  match (e.attributes.get? name).map Value.toJson, sent.attributes.get? name with
  | some a, some b => a.same b
  | none, none => true
  | _, _ => false

/-- Notes that a record of the object was written. What was changed again in the meantime stays
changed. -/
def markPersisted (e : Entity) (sent : Record) : Entity :=
  { e with
    persisted := true
    dirtyAttributes := e.dirtyAttributes.filter fun name _ => !e.attributeSent sent name
    dirtyRelations := e.dirtyRelations.filter fun name _ =>
      e.foreignIds.get? name != sent.belongsTo.get? name }

def markDestroyed (e : Entity) : Entity :=
  { e with destroyed := true, persisted := false }

end Entity

end ObjectStore
