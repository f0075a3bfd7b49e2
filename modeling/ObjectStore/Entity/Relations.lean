import ObjectStore.Entity.Basic

/-!
This module contains the relationships of entities: the foreign ids, and the objects that are known to
be behind them.
-/

namespace ObjectStore.Entity

def relationship (e : Entity) (name : String) : Except StoreError Relationship :=
  match e.objectType.belongsTo? name with
  | some r => .ok r
  | none => .error (.unknownRelationship e.typeName name)

def foreignId? (e : Entity) (name : String) : Option String :=
  (e.foreignIds.get? name).join

def relatedId (e : Entity) (name : String) : Except StoreError (Option String) := do
  let _ ← e.relationship name
  return e.foreignId? name

def isRelatedLoaded (e : Entity) (name : String) : Bool :=
  match e.links.get? name with
  | some (.resolved _) => true
  | _ => false

def knownRelated (e : Entity) : List EntityRef :=
  e.links.values.filterMap fun
    | .resolved target => target
    | .loading _ => none

def setLink (e : Entity) (name : String) (link : Link) : Entity :=
  { e with links := e.links.insert name link }

def dropLink (e : Entity) (name : String) : Entity :=
  { e with links := e.links.erase name }

/-- Lets a relationship point at an object, given with its type and id, or at nothing. A load of the
relationship is abandoned. -/
def setRelated (e : Entity) (name : String) (target : Option (EntityRef × Identity)) :
    Except StoreError Entity := do
  let r ← e.relationship name
  match target with
  | some (_, object) =>
    if object.typeName ≠ r.foreignType then
      throw (.typeMismatch r.foreignType object.typeName)
  | none => pure ()
  return { e with
    foreignIds := e.foreignIds.insert name (target.map fun (_, object) => object.id)
    links := e.links.insert name (.resolved (target.map fun (ref, _) => ref))
    dirtyRelations := e.dirtyRelations.add name }

/-- Sets the foreign id of a relationship. If it is another one than before, what is known of the
object is forgotten. -/
def setRelatedId (e : Entity) (name : String) (id : Option String) : Except StoreError Entity := do
  let _ ← e.relationship name
  if e.foreignIds.get? name = some id then
    return e
  else
    return { e with
      foreignIds := e.foreignIds.insert name id
      links := e.links.erase name
      dirtyRelations := e.dirtyRelations.add name }

/-- Takes the result of a load into the link, if the link still waits for this load. A load that
failed leaves the object unknown. -/
def finishLoad (e : Entity) (name : String) (load : LoadRef)
    (result : Except StoreError (Option EntityRef)) : Entity :=
  if e.links.get? name = some (.loading load) then
    match result with
    | .ok target => e.setLink name (.resolved target)
    | .error _ => e.dropLink name
  else
    e

/-- The foreign id to be followed ahead of time, unless the relationship was changed and has to be
left alone. -/
def preloadTarget? (e : Entity) (name : String) : Option (Option String) :=
  if e.dirtyRelations.contains name then none else some (e.foreignId? name)

def cachePreloaded (e : Entity) (name : String) (target : Option EntityRef) : Entity :=
  if e.dirtyRelations.contains name then e else e.setLink name (.resolved target)

/-- The query for the objects that point back at this one through a relationship. It is the one built
before, if there is one. -/
def hasManyQuery (e : Entity) (name : String) : Except StoreError Query :=
  match e.hasMany.get? name with
  | some q => .ok q
  | none =>
    match e.objectType.hasMany? name with
    | none => .error (.unknownRelationship e.typeName name)
    | some r => do
      let foreign ← e.store.objectType r.foreignType
      return (Query.ofType e.store foreign).and (.pointsAt r.foreignName e.id)

def keepHasMany (e : Entity) (name : String) (q : Query) : Entity :=
  { e with hasMany := e.hasMany.insert name q }

end ObjectStore.Entity
