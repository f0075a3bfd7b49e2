import ObjectStore.Proofs.World.SaveAgain

/-!
This module proves what a save sends for the entity that it starts from: what this one has to have
written, and nothing of other entities that stand for the same object.
-/

namespace ObjectStore

namespace Batch

variable {w : World} {store : Store} {b : Batch} {slot : Slot} {e root : EntityRef}
  {visited : List Identity} {waiting entered : List EntityRef}

/-- What is entered stands for objects that were not met before. -/
theorem Walks.not_visited (h : Walks w store visited waiting entered)
    : ∀ e ∈ entered, (w.entity e).identity ∉ visited := by
  induction h with
  | done => simp
  | missing _ _ ih | again _ _ _ ih => exact ih
  | destroyed _ _ _ _ ih => exact fun e he => List.not_mem_of_not_mem_cons (ih e he)
  | enter _ hvisited _ _ ih =>
    intro e he
    rcases List.mem_cons.mp he with rfl | he
    . exact hvisited
    . exact List.not_mem_of_not_mem_cons (ih e he)

/-- The walk enters its object first, and does not come back to it. -/
theorem Walks.eq_root (h : Walks w store [] [root] entered) (he : e ∈ entered)
    (hidentity : (w.entity e).identity = (w.entity root).identity) : e = root := by
  cases h with
  | missing _ hwalk | again _ _ hwalk | destroyed _ _ _ hwalk =>
    cases hwalk
    cases he
  | enter _ _ _ hwalk =>
    rcases List.mem_cons.mp he with heq | he
    . exact heq
    . exact absurd (hidentity ▸ List.mem_cons_self) (hwalk.not_visited e he)

theorem entity_eq_of_mem_saveBatch (hroot : root < w.entities.size)
    (hslot : slot ∈ (w.saveBatch root).slots)
    (hidentity : (w.entity slot.entity).identity = (w.entity root).identity)
    : slot.entity = root := by
  obtain ⟨entered, hwalk, hrecorded⟩ := exists_walks_saveBatch hroot
  exact hwalk.eq_root (hrecorded.entity_mem_entered hslot) hidentity

theorem proper_saveBatch (w : World) (root : EntityRef) : (w.saveBatch root).Proper w :=
  (proper_empty w _).save (w.save_eq_saveBatch root)

/-- The slot of the entity that a save starts from. -/
theorem mem_saveBatch_self (hroot : root < w.entities.size)
    (hlives : (w.entity root).destroyed = false)
    : ⟨(w.entity root).identity, root, false⟩ ∈ (w.saveBatch root).slots := by
  obtain ⟨_, slot, hslot, hobject⟩ := exists_slot_of_save hroot hlives (w.save_eq_saveBatch root)
  have hidentity := (proper_saveBatch w root).object slot hslot
  have hentity := entity_eq_of_mem_saveBatch hroot hslot (hidentity.symm.trans hobject)
  have hkeep := savesOnly_saveBatch w root slot hslot
  have hself : slot = ⟨(w.entity root).identity, root, false⟩ := by
    cases slot
    rw [Slot.mk.injEq]
    exact ⟨hobject, hentity, hkeep⟩
  rw [← hself]
  exact hslot

theorem filter_ops_eq_nil {slots : List Slot} (object : Identity)
    (hproper : ∀ slot ∈ slots, slot.object = (w.entity slot.entity).identity)
    (hothers : ∀ slot ∈ slots, slot.object ≠ object)
    : ((slots.filterMap (planSlot w)).map Planned.op).filter (Adapter.target · = object) = [] := by
  rw [List.filter_eq_nil_iff]
  intro op hop
  obtain ⟨p, hp, rfl⟩ := List.mem_map.mp hop
  obtain ⟨slot, hslot, hplan⟩ := List.mem_filterMap.mp hp
  rw [target_of_planSlot hplan, ← hproper slot hslot, decide_eq_true_eq]
  exact hothers slot hslot

/-- Of all that a batch sends, only what its slot gives rise to is for an object. -/
theorem Proper.filter_ops (h : b.Proper w) (hslot : slot ∈ b.slots)
    : (b.ops w).filter (Adapter.target · = slot.object)
        =
      ((planSlot w slot).map Planned.op).toList := by
  have hdistinct := h.distinct
  have hproper := h.object
  unfold ops plan
  obtain ⟨before, after, hslots⟩ := List.append_of_mem hslot
  rw [hslots] at hdistinct hproper ⊢
  rw [List.map_append, List.map_cons, List.nodup_append, List.nodup_cons] at hdistinct
  obtain ⟨-, ⟨hafter, -⟩, hbefore⟩ := hdistinct
  have hnone := filter_ops_eq_nil slot.object
    (fun slot' hslot' => hproper slot' (List.mem_append_left _ hslot'))
    fun slot' hslot' => hbefore _ (List.mem_map_of_mem hslot') _ List.mem_cons_self
  have hnone' := filter_ops_eq_nil slot.object
    (fun slot' hslot' => hproper slot' (List.mem_append_right _ (List.mem_cons_of_mem _ hslot')))
    fun slot' hslot' heq => hafter (heq ▸ List.mem_map_of_mem hslot')
  rw [List.filterMap_append, List.filterMap_cons, List.map_append, List.filter_append, hnone,
    List.nil_append]
  cases hplan : planSlot w slot with
  | none => exact hnone'
  | some p =>
    have htarget : Adapter.target p.op = slot.object :=
      (target_of_planSlot hplan).trans (hproper slot (by simp)).symm
    dsimp only
    rw [List.map_cons, List.filter_cons, hnone', if_pos (by simpa using htarget)]
    rfl

/-- What is sent of an entity that is not destroyed: all of it if it is new, or else what was changed. -/
theorem planSlot_of_lives (hlives : (w.entity slot.entity).destroyed = false)
    (hkeep : slot.destroy = false)
    : (planSlot w slot).map Planned.op
        =
      if (w.entity slot.entity).persisted = false then
        some (.put (w.entity slot.entity).toRecord)
      else if (w.entity slot.entity).isDirty then
        some (.patch (w.entity slot.entity).toPatch)
      else
        none := by
  unfold planSlot
  dsimp only
  rw [hlives, hkeep]
  cases (w.entity slot.entity).persisted <;> cases (w.entity slot.entity).isDirty <;> rfl

end Batch

namespace World

/-- The operations on the object of an entity that a save of the entity sends. -/
def ownOps (w : World) (e : EntityRef) : List WriteOp :=
  ((w.saveBatch e).ops w).filter (Adapter.target · = (w.entity e).identity)

variable {w : World} {e : EntityRef}

theorem ownOps_of_lives (he : e < w.entities.size) (hlives : (w.entity e).destroyed = false)
    : w.ownOps e
        =
      if (w.entity e).persisted = false then [.put (w.entity e).toRecord]
      else if (w.entity e).isDirty then [.patch (w.entity e).toPatch]
      else [] := by
  have hfilter := (Batch.proper_saveBatch w e).filter_ops (Batch.mem_saveBatch_self he hlives)
  dsimp only at hfilter
  unfold ownOps
  rw [hfilter, Batch.planSlot_of_lives hlives rfl]
  split
  . rfl
  . split <;> rfl

end World

namespace Handle

variable {x : Handle} {w : World}

end Handle

end ObjectStore
