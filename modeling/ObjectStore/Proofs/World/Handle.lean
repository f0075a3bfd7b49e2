import ObjectStore.Proofs.Adapter.Content
import ObjectStore.Proofs.World.Batch
import ObjectStore.Proofs.World.Frame

/-!
This module contains handles, which follow one object through a world: in memory and in storage. It
proves that a batch holds at most one operation on the object, as long as no other entity writes it.
-/

namespace ObjectStore

/-- An entity, the object that it stands for, and the adapter that stores the object. -/
structure Handle where
  entity : EntityRef
  adapter : AdapterRef
  object : Identity

namespace Handle

variable (x : Handle)

def entityIn (w : World) : Entity :=
  w.entity x.entity

def stored (w : World) : Option Record :=
  (w.adapter x.adapter).record? x.object.typeName x.object.id

structure Valid (w : World) : Prop where
  entity_lt : x.entity < w.entities.size
  adapter_lt : x.adapter < w.adapters.size
  identity : (x.entityIn w).identity = x.object
  store : (x.entityIn w).store.adapter = x.adapter
  faults : (w.adapter x.adapter).faults = {}
  wellKept : (w.adapter x.adapter).WellKept

/-- No other entity writes the object in the batch. -/
def WritesAlone (w : World) (b : Batch) : Prop :=
  b.store.adapter = x.adapter →
    ∀ slot ∈ b.slots, (w.entity slot.entity).identity = x.object → slot.entity = x.entity

/-- At most one operation of a batch is on the object, and that one is for the entity. -/
structure Owns (d : Dispatch) : Prop where
  target : ∀ p ∈ d.planned,
    p.entity = x.entity ↔ d.adapter = x.adapter ∧ Adapter.target p.op = x.object
  once : d.planned.Pairwise fun p q => ¬(p.entity = x.entity ∧ q.entity = x.entity)
  localDestroys : x.entity ∈ d.localDestroys → ∀ p ∈ d.planned, p.entity ≠ x.entity

variable {x} {w : World} {b : Batch}

theorem Valid.slot_iff (hx : x.Valid w) (hb : b.Proper w) (halone : x.WritesAlone w b) {slot : Slot}
    (hslot : slot ∈ b.slots)
    : slot.entity = x.entity
        ↔
      b.store.adapter = x.adapter ∧ (w.entity slot.entity).identity = x.object := by
  constructor
  . intro heq
    have hadapter := hb.adapter slot hslot
    rw [heq] at hadapter ⊢
    exact ⟨hadapter.symm.trans hx.store, hx.identity⟩
  . rintro ⟨hadapter, hidentity⟩
    exact halone hadapter slot hslot hidentity

theorem Valid.owns_dispatch (hx : x.Valid w) (hb : b.Proper w) (halone : x.WritesAlone w b)
    : x.Owns (b.dispatch w) := by
  have hsame : ∀ slot ∈ b.slots, ∀ slot' ∈ b.slots, slot.entity = x.entity → slot'.entity = x.entity →
      slot = slot' := by
    intro slot hslot slot' hslot' heq heq'
    apply hb.slot_eq hslot hslot'
    rw [heq, heq']
  constructor
  . intro p hp
    obtain ⟨slot, hslot, hplan⟩ := Batch.mem_plan hp
    obtain ⟨hentity, _, hdue⟩ := Batch.planSlot_eq_some hplan
    rw [hentity, hdue.target_eq]
    exact hx.slot_iff hb halone hslot
  . have hdistinct : b.slots.Pairwise fun slot slot' => slot.object ≠ slot'.object :=
      List.pairwise_map.1 hb.distinct
    apply List.Pairwise.filterMap _ _ (hdistinct.imp_of_mem _)
    . exact fun slot slot' => ¬(slot.entity = x.entity ∧ slot'.entity = x.entity)
    . intro slot slot' hne p hp q hq heq
      apply hne
      rw [← (Batch.planSlot_eq_some hp).1, ← (Batch.planSlot_eq_some hq).1]
      exact heq
    . intro slot slot' hslot hslot' hne heq
      exact hne (congrArg Slot.object (hsame slot hslot slot' hslot' heq.1 heq.2))
  . intro hlocal p hp hentity
    obtain ⟨slot, hslot, heq⟩ := List.mem_map.1 hlocal
    obtain ⟨hslot, hdestroy⟩ := List.mem_filter.1 hslot
    obtain ⟨slot', hslot', hplan⟩ := Batch.mem_plan hp
    obtain ⟨hentity', _, hdue⟩ := Batch.planSlot_eq_some hplan
    have hslots := hsame slot hslot slot' hslot' heq (hentity'.symm.trans hentity)
    rw [hslots] at hdestroy
    simp only [Bool.and_eq_true, Bool.not_eq_true'] at hdestroy
    have hpersisted := hdue.persisted_of_destroy hdestroy.1
    simp [hdestroy.2] at hpersisted

end Handle

end ObjectStore
