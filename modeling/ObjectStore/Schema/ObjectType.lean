import ObjectStore.Keyed
import ObjectStore.Schema.AttributeType
import ObjectStore.Schema.DisplayFormat

/-!
This module contains object types, with their attributes and relationships, and schemas, which are
sets of object types.
-/

namespace ObjectStore

structure AttributeDef where
  name : String
  type : AttributeType
  default : Value := .null
deriving Repr

inductive Direction where
  | belongsTo
  | hasMany
deriving DecidableEq, Repr

structure Relationship where
  direction : Direction
  localType : String
  foreignType : String
  localName : String
  foreignName : String
deriving DecidableEq, Repr

structure ObjectType where
  name : String
  attributes : Keyed AttributeDef
  belongsTo : Keyed Relationship
  hasMany : Keyed Relationship
  displayFormat : Option DisplayFormat

namespace ObjectType

def ofName (name : String) : ObjectType :=
  ⟨name, .empty, .empty, .empty, none⟩

instance : Inhabited ObjectType := ⟨ofName ""⟩

def addAttribute (t : ObjectType) (a : AttributeDef) : ObjectType :=
  { t with attributes := t.attributes.insert a.name a }

def addBelongsTo (t : ObjectType) (name foreignType foreignName : String) : ObjectType :=
  { t with
    belongsTo := t.belongsTo.insert name ⟨.belongsTo, t.name, foreignType, name, foreignName⟩ }

def addHasMany (t : ObjectType) (name foreignType foreignName : String) : ObjectType :=
  { t with hasMany := t.hasMany.insert name ⟨.hasMany, t.name, foreignType, name, foreignName⟩ }

def withDisplayFormat (t : ObjectType) (template : String) : ObjectType :=
  { t with displayFormat := some ⟨template⟩ }

def attribute? (t : ObjectType) (name : String) : Option AttributeDef :=
  t.attributes.get? name

def belongsTo? (t : ObjectType) (name : String) : Option Relationship :=
  t.belongsTo.get? name

def hasMany? (t : ObjectType) (name : String) : Option Relationship :=
  t.hasMany.get? name

end ObjectType

abbrev Schema := Keyed ObjectType

namespace Schema

def addType (s : Schema) (t : ObjectType) : Schema :=
  s.insert t.name t

end Schema

end ObjectStore
