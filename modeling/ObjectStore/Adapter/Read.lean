import ObjectStore.Adapter.Sort
import ObjectStore.Adapter.Write

/-!
This module contains what an adapter answers about its records. A query is answered one clause of the
normal form after the other.
-/

namespace ObjectStore.Adapter

def get (a : Adapter) (typeName id : String) : Except AdapterError (Option Record) := do
  a.checkOnline
  return (a.record? typeName id).map a.handOut

def getAll (a : Adapter) (typeName : String) (ids : List String) :
    Except AdapterError (List (Option Record)) := do
  a.checkOnline
  let groups := chunks a.batchLimit a.batchLimit_pos ids
  return groups.flatMap fun group => group.map fun id => (a.record? typeName id).map a.handOut

def matchClause (table : Keyed Record) (found : Keyed Record) (clause : Expression) :
    Keyed Record :=
  table.entries.foldl (fun found (id, record) =>
    if !found.contains id && clause.evaluate record then found.insert id record else found) found

def matching (table : Keyed Record) (clauses : List Expression) : List Record :=
  (clauses.foldl (matchClause table) .empty).values

def select (a : Adapter) (q : Query) : Except AdapterError (List Record) :=
  match q.normalized with
  | .error e => .error (.unsupported e.message)
  | .ok (.any clauses) => .ok (sortRecords q.order (matching (a.table q.objectType.name) clauses))
  | .ok e => .error (.unsupported s!"filter did not normalize: {e.text}")

def window (q : Query) (records : List Record) : List Record :=
  let records := records.drop q.skip
  match q.limit with
  | some limit => records.take limit
  | none => records

def query (a : Adapter) (q : Query) : Except AdapterError (List Record) := do
  a.checkOnline
  return (window q (← a.select q)).map a.handOut

def count (a : Adapter) (q : Query) : Except AdapterError Nat := do
  a.checkOnline
  let matched := (← a.select q).length - q.skip
  return (q.limit.map (min matched)).getD matched

def natJson (n : Nat) : Json :=
  ((JsonNumber.ofDecimal? n 0).map .number).getD .null

def explain (a : Adapter) (q : Query) : Except AdapterError Json := do
  a.checkOnline
  let clauses ←
    match q.normalized with
    | .error e => throw (.unsupported e.message)
    | .ok (.any clauses) => pure (clauses.map Expression.text)
    | .ok e => pure [e.text]
  let order := q.order.map fun key => (if key.descending then "-" else "") ++ key.field.name
  return .ofFields [
    ("adapter", .string "memory"),
    ("type", .string q.objectType.name),
    ("strategy", .string "scan per clause"),
    ("clauses", .array (clauses.map .string)),
    ("order_by", .array (order.map .string)),
    ("skip", natJson q.skip),
    ("limit", (q.limit.map natJson).getD .null)]

end ObjectStore.Adapter
