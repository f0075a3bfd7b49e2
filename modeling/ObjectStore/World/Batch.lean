import ObjectStore.World.Basic

/-!
This module contains batches: objects to be saved and destroyed together. A batch has one slot for each
object, in the order in which the objects were first named. What is sent depends on the state of
the entities at the time when it is sent.
-/

namespace ObjectStore

structure Slot where
  object : Identity
  entity : EntityRef
  destroy : Bool
deriving DecidableEq, Repr

structure Batch where
  store : Store
  slots : List Slot

structure Planned where
  entity : EntityRef
  op : WriteOp

namespace Batch

def empty (store : Store) : Batch :=
  ⟨store, []⟩

/-- Enters an object into slots. A slot that destroys stays as it is. -/
def enterSlot (object : Identity) (entity : EntityRef) (destroy : Bool) : List Slot → List Slot
  | [] => [⟨object, entity, destroy⟩]
  | slot :: slots =>
    if slot.object = object then
      (if slot.destroy then slot else ⟨object, entity, destroy⟩) :: slots
    else
      slot :: enterSlot object entity destroy slots

def enter (b : Batch) (object : Identity) (entity : EntityRef) (destroy : Bool) : Batch :=
  { b with slots := enterSlot object entity destroy b.slots }

def checkAdapter (b : Batch) (entity : Entity) : Except StoreError Unit :=
  if b.store.sameAdapter entity.store then .ok () else .error (.foreignAdapter entity.identity)

/-- The known objects related to an entity that have to be written with it: those that have been
changed and belong to the adapter of the batch. -/
def relatedToSave (w : World) (b : Batch) (entity : Entity) : List EntityRef :=
  entity.knownRelated.filter fun r =>
    (w.entity r).isDirty && b.store.sameAdapter (w.entity r).store

def unvisited (w : World) (visited : List Identity) : Nat :=
  w.entities.countP fun entity => decide (entity.identity ∉ visited)

theorem countP_lt_countP {α : Type} {p q : α → Bool} {a : α} {items : List α} (ha : a ∈ items)
    (hp : p a = false) (hq : q a = true) (hle : ∀ x, p x = true → q x = true)
    : items.countP p < items.countP q := by
  obtain ⟨before, after, rfl⟩ := List.append_of_mem ha
  have hbefore : before.countP p ≤ before.countP q := List.countP_mono_left fun x _ => hle x
  have hafter : after.countP p ≤ after.countP q := List.countP_mono_left fun x _ => hle x
  simp only [List.countP_append, List.countP_cons, hp, hq, if_true, Bool.false_eq_true, if_false]
  omega

theorem unvisited_cons_le (w : World) (visited : List Identity) (object : Identity)
    : unvisited w (object :: visited) ≤ unvisited w visited := by
  unfold unvisited
  apply Array.countP_mono_left
  intro entity _ hnew
  simp only [decide_eq_true_eq, List.mem_cons, not_or] at hnew ⊢
  exact hnew.2

theorem unvisited_cons_lt {w : World} {visited : List Identity} {e : EntityRef} {entity : Entity}
    (he : w.entities[e]? = some entity) (hv : entity.identity ∉ visited)
    : unvisited w (entity.identity :: visited) < unvisited w visited := by
  unfold unvisited
  rw [← Array.countP_toList, ← Array.countP_toList]
  apply countP_lt_countP (Array.mem_toList_iff.2 (Array.mem_of_getElem? he))
  . simp
  . simpa using hv
  . intro x hnew
    simp only [decide_eq_true_eq, List.mem_cons, not_or] at hnew ⊢
    exact hnew.2

/-- Enters the entities that wait and the objects related to them. The last one that was found is
the first to be entered, and each object is entered once. -/
def saveWalk (w : World) (visited : List Identity) (b : Batch) : List EntityRef → Batch
  | [] => b
  | e :: waiting =>
    match _he : w.entities[e]? with
    | none => saveWalk w visited b waiting
    | some entity =>
      if _hv : entity.identity ∈ visited then
        saveWalk w visited b waiting
      else if entity.destroyed then
        saveWalk w (entity.identity :: visited) b waiting
      else
        saveWalk w (entity.identity :: visited) (b.enter entity.identity e false)
          ((relatedToSave w b entity).reverse ++ waiting)
termination_by waiting => (unvisited w visited, waiting.length)
decreasing_by
  . exact Prod.Lex.right _ (by simp)
  . exact Prod.Lex.right _ (by simp)
  . rcases Nat.lt_or_eq_of_le (unvisited_cons_le w visited entity.identity) with h | h
    . exact Prod.Lex.left _ _ h
    . rw [h]
      exact Prod.Lex.right _ (by simp)
  . exact Prod.Lex.left _ _ (unvisited_cons_lt _he _hv)

/-- Enters an entity to be saved, and the changed objects that it and these are known to be related
to. Objects of other adapters and destroyed ones are left out. -/
def save (w : World) (b : Batch) (e : EntityRef) : Except StoreError Batch := do
  b.checkAdapter (w.entity e)
  return b.saveWalk w [] [e]

def destroy (w : World) (b : Batch) (e : EntityRef) : Except StoreError Batch := do
  let entity := w.entity e
  b.checkAdapter entity
  return if entity.destroyed then b else b.enter entity.identity e true

def size (b : Batch) : Nat :=
  b.slots.length

def planSlot (w : World) (slot : Slot) : Option Planned :=
  let entity := w.entity slot.entity
  if entity.destroyed then
    none
  else if slot.destroy then
    if entity.persisted then some ⟨slot.entity, .delete entity.typeName entity.id⟩ else none
  else if !entity.persisted then
    some ⟨slot.entity, .put entity.toRecord⟩
  else if entity.isDirty then
    some ⟨slot.entity, .patch entity.toPatch⟩
  else
    none

def plan (w : World) (b : Batch) : List Planned :=
  b.slots.filterMap (planSlot w)

def ops (w : World) (b : Batch) : List WriteOp :=
  (b.plan w).map (·.op)

/-- The entities to be destroyed that were never stored. They need no operation. -/
def localDestroys (w : World) (b : Batch) : List EntityRef :=
  (b.slots.filter fun slot => slot.destroy && !(w.entity slot.entity).persisted).map (·.entity)

end Batch

/-- A batch on its way: the operations that were sent, and the entities that are destroyed as soon as
these have gone through. -/
structure Dispatch where
  adapter : AdapterRef
  planned : List Planned
  localDestroys : List EntityRef

namespace Batch

def dispatch (w : World) (b : Batch) : Dispatch :=
  ⟨b.store.adapter, b.plan w, b.localDestroys w⟩

end Batch

namespace Dispatch

def ops (d : Dispatch) : List WriteOp :=
  d.planned.map (·.op)

def succeed (w : World) (p : Planned) : World :=
  w.modifyEntity p.entity fun entity =>
    match p.op with
    | .put record | .patch record => entity.markPersisted record
    | .delete .. => entity.markDestroyed

def destroyLocally (w : World) (d : Dispatch) : World :=
  d.localDestroys.foldl (fun w e => w.modifyEntity e Entity.markDestroyed) w

def settleEach (w : World) : List (Planned × Adapter.WriteResult) → List BatchFailure × World
  | [] => ([], w)
  | (p, .ok ()) :: rest => settleEach (succeed w p) rest
  | (p, .error error) :: rest =>
    let (failures, w') := settleEach w rest
    (⟨p.entity, (w.entity p.entity).identity, error⟩ :: failures, w')

/-- Notes the answer of the adapter. If it failed as a whole, or has not one result for each
operation, nothing is noted. -/
def settle (w : World) (d : Dispatch) (answer : Except AdapterError (List Adapter.WriteResult)) :
    Except StoreError Unit × World :=
  match answer with
  | .error e => (.error (.adapter e), w)
  | .ok results =>
    if results.length ≠ d.planned.length then
      (.error (.adapter (.storage
        s!"adapter returned {results.length} results for {d.planned.length} operations")), w)
    else
      let (failures, w) := settleEach (destroyLocally w d) (d.planned.zip results)
      if failures.isEmpty then (.ok (), w)
      else (.error (.batch ⟨failures, d.planned.length⟩), w)

end Dispatch

/-- What is sent for a batch. If that is nothing, the entities that were never stored are destroyed at
once. -/
def Batch.depart (w : World) (b : Batch) : Option Dispatch × World :=
  let d := b.dispatch w
  if d.planned.isEmpty then (none, d.destroyLocally w) else (some d, w)

namespace Batch

variable {w : World} {b : Batch}

theorem depart_of_plan_eq_nil (h : b.plan w = [])
    : b.depart w = (none, (b.dispatch w).destroyLocally w) :=
  if_pos (List.isEmpty_iff.2 h)

theorem depart_of_plan_ne_nil (h : b.plan w ≠ []) : b.depart w = (some (b.dispatch w), w) :=
  if_neg (mt List.isEmpty_iff.1 h)

end Batch

end ObjectStore
