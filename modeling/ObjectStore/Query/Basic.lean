import ObjectStore.Filter.Compile
import ObjectStore.Query.PreloadTree
import ObjectStore.Store

/-!
This module contains queries for the objects of a type: a filter, an order, a window, and the
relationships that are followed together with the query.
-/

namespace ObjectStore

structure OrderBy where
  field : Field
  descending : Bool
deriving DecidableEq, Repr

def OrderBy.read (scope : ObjectType) (spec : String) : Except StoreError OrderBy :=
  let (name, descending) :=
    match spec.toList with
    | '-' :: cs => (String.ofList cs, true)
    | _ => (spec, false)
  match Field.resolve scope name with
  | .ok field => .ok ⟨field, descending⟩
  | .error _ => .error (.unknownAttribute scope.name name)

structure Query where
  store : Store
  objectType : ObjectType
  filter : Expression
  order : List OrderBy
  limit : Option Nat
  skip : Nat
  preload : PreloadTree
deriving Inhabited

structure ClauseWarning where
  typeName : String
  clauses : Nat
  threshold : Nat
deriving DecidableEq, Repr

namespace Query

def ofType (store : Store) (objectType : ObjectType) : Query :=
  ⟨store, objectType, .always, [], none, 0, .empty⟩

def and (q : Query) (e : Expression) : Query :=
  { q with filter := q.filter.andAlso e }

def refine (q : Query) (source : String) (args : List Value) : Except StoreError Query :=
  match Expression.ofSource q.objectType source args with
  | .ok e => .ok (q.and e)
  | .error e => .error (.filter e)

def refineBy (q : Query) (entries : List (String × Value)) : Except StoreError Query :=
  match Expression.ofEntries q.objectType entries with
  | .ok e => .ok (q.and e)
  | .error e => .error (.filter (.compile e))

def take (q : Query) (limit : Nat) : Query :=
  { q with limit := some limit }

def drop (q : Query) (skip : Nat) : Query :=
  { q with skip }

def orderBy (q : Query) (specs : List String) : Except StoreError Query := do
  return { q with order := ← specs.mapM (OrderBy.read q.objectType) }

def checkSegments (store : Store) (scope : ObjectType) : List String → Except StoreError Unit
  | [] => .ok ()
  | s :: ss =>
    match scope.belongsTo? s with
    | none => .error (.unknownRelationship scope.name s)
    | some relationship => do
      checkSegments store (← store.objectType relationship.foreignType) ss

def checkPath (q : Query) (path : String) : Except StoreError Unit :=
  let segments := Text.segments path
  let limit := q.store.config.maxPreloadDepth
  if limit < segments.length then
    .error (.preloadTooDeep path limit)
  else
    checkSegments q.store q.objectType segments

def following (q : Query) (paths : List String) : Except StoreError Query := do
  let preload ← paths.foldlM (fun tree path => do
    q.checkPath path
    return tree.insertPath path) q.preload
  return { q with preload }

def normalized (q : Query) : Except TooManyClauses Expression :=
  q.filter.normalize q.store.config.maxClauses

def clauseCount : Expression → Nat
  | .any clauses => clauses.length
  | _ => 0

def warning? (q : Query) : Option ClauseWarning :=
  match q.normalized with
  | .ok e =>
    let clauses := clauseCount e
    let threshold := q.store.config.warnClauses
    if threshold < clauses then some ⟨q.objectType.name, clauses, threshold⟩ else none
  | .error _ => none

def first (q : Query) : Query :=
  q.take 1

def withId (q : Query) (id : String) : Query :=
  q.and (.equals .id (.string id))

def withDisplay (q : Query) (formats : Option (List DisplayFormat)) : Except StoreError Query :=
  let formats := formats.getD q.objectType.displayFormat.toList
  q.following (formats.flatMap DisplayFormat.relationshipPaths)

/-- Equality of queries. Stores count by their adapter, and types by their name. -/
def same (q r : Query) : Bool :=
  q.store.sameAdapter r.store && q.objectType.name == r.objectType.name &&
    q.filter.same r.filter && q.order == r.order && q.limit == r.limit && q.skip == r.skip &&
    q.preload.same r.preload

end Query

end ObjectStore
