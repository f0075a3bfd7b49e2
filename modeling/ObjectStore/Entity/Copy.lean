import ObjectStore.Entity.Relations

/-!
This module contains copies of entities, of the same type or of another one.
-/

namespace ObjectStore.Entity

/-- The attributes of a copy, and those among them that come from the source. Each one is cast into
the type that it has in the target. -/
def copyAttributes (source : Entity) (target : ObjectType) :
    Except StoreError (Keyed Value × Names) :=
  target.attributes.values.foldlM (fun (values, copied) attr =>
    match source.attributes.get? attr.name with
    | none => .ok (values.insert attr.name attr.default, copied)
    | some v =>
      match attr.type.cast v with
      | .ok v => .ok (values.insert attr.name v, copied.add attr.name)
      | .error e => .error (.cast (e.forAttribute attr.name))) (.empty, .empty)

def sharesRelation (source : Entity) (name : String) (r : Relationship) : Bool :=
  (source.objectType.belongsTo? name).any fun own => own.foreignType == r.foreignType

def copyLinks (source : Entity) (shared : Keyed Relationship) : Keyed Link :=
  .ofList (shared.names.filterMap fun name =>
    match source.links.get? name with
    | some (.resolved target) => some (name, .resolved target)
    | _ => none)

/-- A copy as an object of the target type. What is copied counts as changed. A stored object keeps
its id, and the copy counts as stored if the type is the same. Otherwise the copy is new. -/
def copyAs (source : Entity) (target : ObjectType) (freshId : String) :
    Except StoreError Entity :=
  match source.copyAttributes target with
  | .error e => .error e
  | .ok (attributes, dirtyAttributes) =>
    let shared := target.belongsTo.filter (source.sharesRelation ·)
    let id := if source.persisted then source.id else freshId
    let persisted := source.persisted && target.name == source.typeName
    .ok { bare source.store target id persisted with
      attributes
      dirtyAttributes
      foreignIds := target.belongsTo.map fun name _ =>
        if shared.contains name then source.foreignId? name else none
      links := source.copyLinks shared
      dirtyRelations := shared.map fun _ _ => () }

end ObjectStore.Entity
