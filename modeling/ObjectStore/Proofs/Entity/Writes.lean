import ObjectStore.Proofs.Adapter.Content
import ObjectStore.Proofs.Entity.Parts

/-!
This module proves what operations that go through, one after the other, make of a part of the stored
record.
-/

namespace ObjectStore

/-- The value that an operation leaves a part with, if it writes the part. -/
def WriteOp.written? (p : Part) : WriteOp → Option (Option PartValue)
  | put record => some (record.part? p)
  | patch record => (record.part? p).map some
  | delete .. => some none

/-- The value that the last of some operations to write a part leaves it with. -/
def WriteOp.lastWritten? (p : Part) (ops : List WriteOp) : Option (Option PartValue) :=
  (ops.filterMap (written? p)).getLast?

/-- What operations make of the value of a part. -/
def WriteOp.leave (p : Part) (ops : List WriteOp) (value : Option PartValue) : Option PartValue :=
  ops.foldl (fun value op => (op.written? p).getD value) value

namespace WriteOp

variable (p : Part)

theorem leave_append (ops ops' : List WriteOp) (value : Option PartValue)
    : leave p (ops ++ ops') value = leave p ops' (leave p ops value) := by
  unfold leave
  apply List.foldl_append

theorem leave_eq_getD (ops : List WriteOp) (value : Option PartValue)
    : leave p ops value = (lastWritten? p ops).getD value := by
  induction ops generalizing value with
  | nil => rfl
  | cons op ops ih =>
    have hcons : leave p (op :: ops) value = leave p ops ((op.written? p).getD value) := rfl
    rw [hcons, ih]
    unfold lastWritten?
    rw [List.filterMap_cons]
    cases op.written? p with
    | none => rfl
    | some written =>
      dsimp only
      rw [List.getLast?_cons]
      rfl

theorem leave_of_forall_eq_none {ops : List WriteOp} (h : ∀ op ∈ ops, op.written? p = none)
    (value : Option PartValue) : leave p ops value = value := by
  rw [leave_eq_getD]
  unfold lastWritten?
  rw [List.filterMap_eq_nil_iff.2 h]
  rfl

/-- A patch goes through on a stored record only. -/
theorem part?_overlay {stored : Option Record} {op : WriteOp}
    (h : Adapter.isPut op = true ∨ stored.isSome = true)
    : (Adapter.overlay stored op).bind (·.part? p)
        =
      (op.written? p).getD (stored.bind (·.part? p)) := by
  cases op with
  | put record => rfl
  | delete typeName id => rfl
  | patch record =>
    cases stored with
    | none =>
      rcases h with h | h <;> cases h
    | some stored =>
      unfold Adapter.overlay written?
      simp only [Option.map_some, Option.bind_some, Record.part?_merge]
      cases record.part? p <;> rfl

end WriteOp

end ObjectStore
