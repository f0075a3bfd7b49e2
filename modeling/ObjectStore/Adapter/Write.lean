import ObjectStore.Adapter.Basic

/-!
This module contains the changes that an adapter makes to its records. It handles the operations of a
batch in groups, and every operation has its own result.
-/

namespace ObjectStore

def chunks {α : Type} (size : Nat) (hsize : 0 < size) (items : List α) : List (List α) :=
  if _h : items = [] then
    []
  else
    items.take size :: chunks size hsize (items.drop size)
termination_by items.length
decreasing_by
  have := List.length_pos_iff.2 _h
  simp only [List.length_drop]
  omega

@[simp]
theorem flatten_chunks {α : Type} (size : Nat) (hsize : 0 < size) (items : List α)
    : (chunks size hsize items).flatten = items := by
  fun_induction chunks size hsize items with
  | case1 => rfl
  | case2 items h ih => simp [ih]

namespace Adapter

abbrev WriteResult := Except AdapterError Unit

def target (op : WriteOp) : Identity :=
  ⟨op.typeName, op.id⟩

/-- Applies one operation. A failed one changes nothing. -/
def applyOp (a : Adapter) (op : WriteOp) : WriteResult × Adapter :=
  if target op ∈ a.rejected then
    (.error (.rejected s!"{op.typeName} '{op.id}'"), a)
  else
    match op with
    | .put record => (.ok (), a.insert record)
    | .patch record =>
      match a.record? record.typeName record.id with
      | some stored => (.ok (), a.insert (stored.merge record))
      | none => (.error (.notFound (target op)), a)
    | .delete typeName id =>
      if (a.record? typeName id).isSome then (.ok (), a.remove typeName id)
      else (.error (.notFound (target op)), a)

def applyOps (a : Adapter) : List WriteOp → List WriteResult × Adapter
  | [] => ([], a)
  | op :: ops =>
    let (result, a) := a.applyOp op
    let (results, a) := a.applyOps ops
    (result :: results, a)

@[simp]
theorem length_applyOps (a : Adapter) (ops : List WriteOp)
    : (a.applyOps ops).1.length = ops.length := by
  induction ops generalizing a with
  | nil => rfl
  | cons op ops ih => simp [applyOps, ih]

def applyGroups (a : Adapter) : List (List WriteOp) → List WriteResult × Adapter
  | [] => ([], a)
  | ops :: groups =>
    let (results, a) := a.applyOps ops
    let (rest, a) := a.applyGroups groups
    (results ++ rest, a)

def handOutResults (a : Adapter) (results : List WriteResult) : List WriteResult :=
  match a.faults.droppedResults with
  | .ofNat n => results.take (results.length - n)
  | .negSucc n => results ++ List.replicate (n + 1) (.ok ())

/-- Applies a batch. While the adapter is offline nothing is applied. -/
def applyBatch (a : Adapter) (ops : List WriteOp) :
    Except AdapterError (List WriteResult) × Adapter :=
  match a.checkOnline with
  | .error e => (.error e, a)
  | .ok () =>
    let (results, a) := a.applyGroups (chunks a.batchLimit a.batchLimit_pos ops)
    (.ok (a.handOutResults results), a)

end Adapter

end ObjectStore
