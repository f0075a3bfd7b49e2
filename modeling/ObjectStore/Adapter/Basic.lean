import ObjectStore.Query.Basic

/-!
This module contains adapters: the stored records by type and id, and what the outside can set about
how calls go.
-/

namespace ObjectStore

inductive AdapterCall where
  | get (typeName id : String)
  | getAll (typeName : String) (ids : List String)
  | query (typeName : String)
  | apply (count : Nat)
  | count (typeName : String)
  | explain (typeName : String)
deriving DecidableEq, Repr

structure AdapterFaults where
  /-- So many results are missing at the end of the answer to a batch. If the number is negative,
  there are more results than operations. -/
  droppedResults : Int := 0
  relabel : Option String := none
deriving DecidableEq, Repr

structure Adapter where
  tables : Keyed (Keyed Record)
  rejected : List Identity
  /-- The calls received, the latest first. -/
  log : List AdapterCall
  offline : Bool
  latency : Option Nat
  batchLimit : Nat
  batchLimit_pos : 0 < batchLimit
  faults : AdapterFaults

namespace Adapter

def empty : Adapter :=
  ⟨.empty, [], [], false, none, 100, by decide, {}⟩

instance : Inhabited Adapter := ⟨empty⟩

def withBatchLimit (a : Adapter) (limit : Nat) : Adapter :=
  { a with batchLimit := max limit 1, batchLimit_pos := by omega }

def withLatency (a : Adapter) (latency : Nat) : Adapter :=
  { a with latency := some latency }

def withFaults (a : Adapter) (faults : AdapterFaults) : Adapter :=
  { a with faults }

def table (a : Adapter) (typeName : String) : Keyed Record :=
  (a.tables.get? typeName).getD .empty

def record? (a : Adapter) (typeName id : String) : Option Record :=
  (a.table typeName).get? id

def size (a : Adapter) (typeName : String) : Nat :=
  (a.table typeName).size

def insert (a : Adapter) (r : Record) : Adapter :=
  { a with tables := a.tables.insert r.typeName ((a.table r.typeName).insert r.id r) }

def remove (a : Adapter) (typeName id : String) : Adapter :=
  { a with tables := a.tables.insert typeName ((a.table typeName).erase id) }

def reject (a : Adapter) (object : Identity) : Adapter :=
  { a with rejected := object :: a.rejected }

def accept (a : Adapter) (object : Identity) : Adapter :=
  { a with rejected := a.rejected.filter (· ≠ object) }

def setOffline (a : Adapter) (offline : Bool) : Adapter :=
  { a with offline }

def calls (a : Adapter) : List AdapterCall :=
  a.log.reverse

def clearCalls (a : Adapter) : Adapter :=
  { a with log := [] }

def noteCall (a : Adapter) (call : AdapterCall) : Adapter :=
  { a with log := call :: a.log }

def checkOnline (a : Adapter) : Except AdapterError Unit :=
  if a.offline then .error (.storage "adapter is offline") else .ok ()

def handOut (a : Adapter) (r : Record) : Record :=
  match a.faults.relabel with
  | some typeName => { r with typeName }
  | none => r

@[simp]
theorem table_insert (a : Adapter) (r : Record) (typeName : String)
    : (a.insert r).table typeName
        =
      if typeName = r.typeName then (a.table r.typeName).insert r.id r else a.table typeName := by
  simp only [table, insert, Keyed.get?_insert]
  split <;> simp_all

@[simp]
theorem table_remove (a : Adapter) (typeName id typeName' : String)
    : (a.remove typeName id).table typeName'
        =
      if typeName' = typeName then (a.table typeName).erase id else a.table typeName' := by
  simp only [table, remove, Keyed.get?_insert]
  split <;> simp_all

end Adapter

end ObjectStore
