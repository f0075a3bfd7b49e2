import ObjectStore.Adapter.Read
import ObjectStore.Entity.Copy

/-!
This module contains worlds: the adapters, the entities in memory, the loads of related objects that
are under way, and a clock. Everything that refers to one of them does so by its number. The ids of new
objects have the form of random UUIDs, 32 hexadecimal digits in five groups with the version 4 and the
variant marked, and are numbered through.
-/

namespace ObjectStore

def thirtyDigits (n : Nat) : List Char :=
  let ds := Nat.toDigits 16 n
  List.replicate (30 - ds.length) '0' ++ ds

def freshId (n : Nat) : String :=
  let ds := thirtyDigits n
  let group (start length : Nat) : List Char := (ds.drop start).take length
  String.ofList (group 0 8 ++ '-' :: group 8 4 ++ '-' :: '4' :: group 12 3 ++
    '-' :: '8' :: group 15 3 ++ '-' :: ds.drop 18)

def isFreshIdShape (id : String) : Bool :=
  let cs := id.toList
  let dash (i : Nat) : Bool := i == 8 || i == 13 || i == 18 || i == 23
  let hex (c : Char) : Bool := c.isDigit || ('a' ≤ c && c ≤ 'f')
  cs.length == 36 && cs[14]? == some '4' &&
    (cs[19]?.any fun c => c == '8' || c == '9' || c == 'a' || c == 'b') &&
    cs.zipIdx.all fun (c, i) => if dash i then c == '-' else hex c

inductive LoadState where
  /-- The call is under way until the given time. -/
  | underWay (deadline : Nat)
  | settled (result : Except StoreError (Option EntityRef))

structure Load where
  owner : EntityRef
  relation : String
  store : Store
  foreignType : ObjectType
  id : String
  state : LoadState

structure World where
  adapters : Array Adapter
  entities : Array Entity
  loads : Array Load
  clock : Nat
  freshIds : Nat
  /-- The warnings given, the latest first. -/
  warnings : List ClauseWarning

namespace World

def empty : World :=
  ⟨#[], #[], #[], 0, 0, []⟩

instance : Inhabited World := ⟨empty⟩

def adapter (w : World) (a : AdapterRef) : Adapter :=
  w.adapters.getD a .empty

def addAdapter (w : World) (a : Adapter) : AdapterRef × World :=
  (w.adapters.size, { w with adapters := w.adapters.push a })

def modifyAdapter (w : World) (a : AdapterRef) (f : Adapter → Adapter) : World :=
  { w with adapters := w.adapters.modify a f }

def entity (w : World) (e : EntityRef) : Entity :=
  w.entities.getD e default

def addEntity (w : World) (e : Entity) : EntityRef × World :=
  (w.entities.size, { w with entities := w.entities.push e })

def modifyEntity (w : World) (e : EntityRef) (f : Entity → Entity) : World :=
  { w with entities := w.entities.modify e f }

def warn (w : World) (warning : Option ClauseWarning) : World :=
  { w with warnings := warning.toList ++ w.warnings }

def takeFreshId (w : World) : String × World :=
  (freshId (w.freshIds + 1), { w with freshIds := w.freshIds + 1 })

def tryModify (w : World) (e : EntityRef) (f : Entity → Except StoreError Entity) :
    Except StoreError Unit × World :=
  match f (w.entity e) with
  | .ok entity => (.ok (), w.modifyEntity e fun _ => entity)
  | .error err => (.error err, w)

def create (w : World) (store : Store) (typeName : String) :
    Except StoreError EntityRef × World :=
  match store.objectType typeName with
  | .error e => (.error e, w)
  | .ok objectType =>
    let (id, w) := w.takeFreshId
    let (e, w) := w.addEntity (.create store objectType id)
    (.ok e, w)

def hydrate (w : World) (store : Store) (objectType : ObjectType) (r : Record) :
    Except StoreError EntityRef × World :=
  match Entity.hydrate store objectType r with
  | .error e => (.error e, w)
  | .ok entity =>
    let (e, w) := w.addEntity entity
    (.ok e, w)

def hydrate? (w : World) (store : Store) (objectType : ObjectType) :
    Option Record → Except StoreError (Option EntityRef) × World
  | none => (.ok none, w)
  | some r =>
    match w.hydrate store objectType r with
    | (.ok e, w) => (.ok (some e), w)
    | (.error e, w) => (.error e, w)

def hydrateAll (w : World) (store : Store) (objectType : ObjectType) :
    List (Option Record) → Except StoreError (List (Option EntityRef)) × World
  | [] => (.ok [], w)
  | r :: rs =>
    match w.hydrate? store objectType r with
    | (.error e, w) => (.error e, w)
    | (.ok e, w) =>
      match w.hydrateAll store objectType rs with
      | (.error err, w) => (.error err, w)
      | (.ok es, w) => (.ok (e :: es), w)

def build (w : World) (store : Store) (r : Record) : Except StoreError EntityRef × World :=
  match store.objectType r.typeName with
  | .error e => (.error e, w)
  | .ok objectType => w.hydrate store objectType r

def copyAs (w : World) (e : EntityRef) (typeName : Option String) :
    Except StoreError EntityRef × World :=
  let source := w.entity e
  match (typeName.map source.store.objectType).getD (.ok source.objectType) with
  | .error err => (.error err, w)
  | .ok target =>
    let (id, withId) := w.takeFreshId
    match source.copyAs target id with
    | .error err => (.error err, w)
    | .ok copy =>
      let (c, w) := (if source.persisted then w else withId).addEntity copy
      (.ok c, w)

def set (w : World) (e : EntityRef) (name : String) (v : Value) :
    Except StoreError Unit × World :=
  w.tryModify e fun entity => entity.set name v

def setRelated (w : World) (e : EntityRef) (name : String) (target : Option EntityRef) :
    Except StoreError Unit × World :=
  w.tryModify e fun entity =>
    entity.setRelated name (target.map fun t => (t, (w.entity t).identity))

def setRelatedId (w : World) (e : EntityRef) (name : String) (id : Option String) :
    Except StoreError Unit × World :=
  w.tryModify e fun entity => entity.setRelatedId name id

/-- The query for the objects that point back at an entity. It is kept with the entity. -/
def hasMany (w : World) (e : EntityRef) (name : String) : Except StoreError Query × World :=
  match (w.entity e).hasManyQuery name with
  | .ok q => (.ok q, w.modifyEntity e fun entity => entity.keepHasMany name q)
  | .error err => (.error err, w)

def normalized (w : World) (q : Query) : Except StoreError Expression × World :=
  (q.normalized.mapError .normalize, w.warn q.warning?)

theorem entity_modifyEntity (w : World) (e e' : EntityRef) (f : Entity → Entity)
    (h : e < w.entities.size)
    : (w.modifyEntity e f).entity e' = if e' = e then f (w.entity e) else w.entity e' := by
  by_cases he : e' = e
  . subst he
    simp [entity, modifyEntity, h, Array.getElem_modify]
  . simp [entity, modifyEntity, Array.getD_eq_getD_getElem?, Array.getElem?_modify,
      Ne.symm he, he]

end World

end ObjectStore
