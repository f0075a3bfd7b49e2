import ObjectStore.Filter.NormalForm

/-!
This module contains stores: an adapter, the schema of the objects behind it, and the limits for filters
and queries. It also contains what can go wrong in a store, and the messages about it.
-/

namespace ObjectStore

structure Identity where
  typeName : String
  id : String
deriving DecidableEq, Repr, Inhabited

def Identity.text (i : Identity) : String :=
  s!"{i.typeName}#{i.id}"

abbrev EntityRef := Nat

inductive AdapterError where
  | storage (reason : String)
  | notFound (object : Identity)
  | rejected (reason : String)
  | unsupported (reason : String)
deriving DecidableEq, Repr

def AdapterError.message : AdapterError → String
  | storage reason => s!"storage error: {reason}"
  | notFound object => s!"{object.typeName} '{object.id}' not found"
  | rejected reason => s!"rejected: {reason}"
  | unsupported reason => s!"unsupported: {reason}"

structure BatchFailure where
  entity : EntityRef
  object : Identity
  error : AdapterError
deriving DecidableEq, Repr

structure BatchError where
  failures : List BatchFailure
  total : Nat
deriving DecidableEq, Repr

namespace BatchError

def message (e : BatchError) : String :=
  s!"{e.failures.length} of {e.total} batch operations failed"

def first? (e : BatchError) : Option BatchFailure :=
  e.failures.head?

end BatchError

inductive StoreError where
  | cast (e : CastError)
  | filter (e : FilterError)
  | normalize (e : TooManyClauses)
  | adapter (e : AdapterError)
  | batch (e : BatchError)
  | unknownType (name : String)
  | unknownRelationship (typeName name : String)
  | unknownAttribute (typeName name : String)
  | typeMismatch (expected actual : String)
  | foreignAdapter (object : Identity)
  | destroyed (object : Identity)
  | preloadTooDeep (path : String) (limit : Nat)
deriving DecidableEq, Repr

namespace StoreError

def message : StoreError → String
  | cast e => e.message
  | filter e => e.message
  | normalize e => e.message
  | adapter e => s!"adapter error: {e.message}"
  | batch e => e.message
  | unknownType name => s!"unknown object type '{name}'"
  | unknownRelationship typeName name => s!"unknown relationship '{name}' on type '{typeName}'"
  | unknownAttribute typeName name => s!"unknown attribute '{name}' on type '{typeName}'"
  | typeMismatch expected actual => s!"expected {expected}, got {actual}"
  | foreignAdapter object => s!"{object.typeName} '{object.id}' belongs to a different adapter"
  | destroyed object => s!"{object.typeName} '{object.id}' has been destroyed"
  | preloadTooDeep path limit => s!"include path '{path}' exceeds maximum depth {limit}"

end StoreError

def BatchError.collapse (e : BatchError) : StoreError :=
  match e.first? with
  | some failure => .adapter failure.error
  | none => .adapter (.storage "empty batch failure")

def StoreError.collapse : StoreError → StoreError
  | batch e => e.collapse
  | e => e

structure StoreConfig where
  maxClauses : Nat := Expression.defaultLimit
  warnClauses : Nat := 128
  maxPreloadDepth : Nat := 8
deriving DecidableEq, Repr, Inhabited

abbrev AdapterRef := Nat

structure Store where
  adapter : AdapterRef
  schema : Schema
  config : StoreConfig
deriving Inhabited

namespace Store

def sameAdapter (s t : Store) : Bool :=
  s.adapter == t.adapter

def objectType (s : Store) (name : String) : Except StoreError ObjectType :=
  match s.schema.get? name with
  | some t => .ok t
  | none => .error (.unknownType name)

end Store

end ObjectStore
