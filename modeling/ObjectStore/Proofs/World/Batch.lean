import Mathlib.Data.List.Nodup
import ObjectStore.Adapter.Write
import ObjectStore.Proofs.Filter.NormalForm
import ObjectStore.World.Batch

/-!
This module proves that batches are proper: their slots are for different objects, and each slot is for
the object of its entity, on the adapter of the batch.
-/

namespace ObjectStore.Batch

structure Proper (w : World) (b : Batch) : Prop where
  distinct : (b.slots.map Slot.object).Nodup
  object : ∀ slot ∈ b.slots, slot.object = (w.entity slot.entity).identity
  adapter : ∀ slot ∈ b.slots, (w.entity slot.entity).store.adapter = b.store.adapter

def SavesOnly (b : Batch) : Prop :=
  ∀ slot ∈ b.slots, slot.destroy = false

theorem mem_enterSlot {object : Identity} {e : EntityRef} {destroy : Bool} {slots : List Slot}
    {slot : Slot} (h : slot ∈ enterSlot object e destroy slots)
    : slot = ⟨object, e, destroy⟩ ∨ slot ∈ slots := by
  induction slots with
  | nil => simpa [enterSlot] using h
  | cons head slots ih =>
    unfold enterSlot at h
    split at h
    . rcases List.mem_cons.1 h with h | h
      . split at h
        . exact .inr (by simp [h])
        . exact .inl h
      . exact .inr (List.mem_cons_of_mem head h)
    . rcases List.mem_cons.1 h with h | h
      . exact .inr (by simp [h])
      . rcases ih h with h | h
        . exact .inl h
        . exact .inr (List.mem_cons_of_mem head h)

theorem map_object_enterSlot (object : Identity) (e : EntityRef) (destroy : Bool) (slots : List Slot)
    : (enterSlot object e destroy slots).map Slot.object
        =
      if object ∈ slots.map Slot.object then
        slots.map Slot.object
      else
        slots.map Slot.object ++ [object] := by
  induction slots with
  | nil => rfl
  | cons head slots ih =>
    unfold enterSlot
    by_cases hhead : head.object = object
    . cases head.destroy <;> simp [hhead]
    . rw [if_neg hhead, List.map_cons, ih]
      by_cases hmem : object ∈ slots.map Slot.object
      . simp [hmem]
      . simp [hmem, Ne.symm hhead]

theorem proper_empty (w : World) (store : Store) : (empty store).Proper w :=
  ⟨.nil, by simp [empty], by simp [empty]⟩

theorem Proper.enter {w : World} {b : Batch} (h : b.Proper w) (e : EntityRef) (destroy : Bool)
    (hadapter : (w.entity e).store.adapter = b.store.adapter)
    : (b.enter (w.entity e).identity e destroy).Proper w := by
  constructor
  . unfold Batch.enter
    dsimp only
    rw [map_object_enterSlot]
    split
    . exact h.distinct
    . next hnew =>
      rw [List.nodup_append]
      refine ⟨h.distinct, by simp, ?_⟩
      intro object hobject object' hobject' heq
      rw [List.mem_singleton] at hobject'
      rw [heq, hobject'] at hobject
      exact hnew hobject
  . intro slot hslot
    rcases mem_enterSlot hslot with rfl | hslot
    . rfl
    . exact h.object slot hslot
  . intro slot hslot
    rcases mem_enterSlot hslot with rfl | hslot
    . exact hadapter
    . exact h.adapter slot hslot

theorem entity_of_getElem? {w : World} {e : EntityRef} {entity : Entity}
    (h : w.entities[e]? = some entity) : w.entity e = entity := by
  unfold World.entity
  rw [Array.getD_eq_getD_getElem?, h]
  rfl

-- Only entities of the adapter of the batch ever wait to be entered.
theorem Proper.saveWalk {w : World} {b : Batch} {visited : List Identity} {waiting : List EntityRef}
    (h : b.Proper w) (hwaiting : ∀ e ∈ waiting, (w.entity e).store.adapter = b.store.adapter)
    : (b.saveWalk w visited waiting).Proper w := by
  fun_induction Batch.saveWalk w visited b waiting with
  | case1 => exact h
  | case2 visited b e waiting _ ih =>
    exact ih h fun e' he' => hwaiting e' (List.mem_cons_of_mem e he')
  | case3 visited b e waiting entity _ _ ih =>
    exact ih h fun e' he' => hwaiting e' (List.mem_cons_of_mem e he')
  | case4 visited b e waiting entity _ _ _ ih =>
    exact ih h fun e' he' => hwaiting e' (List.mem_cons_of_mem e he')
  | case5 visited b e waiting entity hentity _ _ ih =>
    rw [← entity_of_getElem? hentity] at ih ⊢
    apply ih
    . exact h.enter e false (hwaiting e List.mem_cons_self)
    . intro e' he'
      rcases List.mem_append.1 he' with he' | he'
      . rw [List.mem_reverse] at he'
        unfold relatedToSave at he'
        simp only [List.mem_filter, Bool.and_eq_true] at he'
        have hsame := he'.2.2
        unfold Store.sameAdapter at hsame
        exact (beq_iff_eq.1 hsame).symm
      . exact hwaiting e' (List.mem_cons_of_mem e he')

theorem adapter_of_checkAdapter {b : Batch} {entity : Entity} (h : b.checkAdapter entity = .ok ())
    : entity.store.adapter = b.store.adapter := by
  unfold checkAdapter Store.sameAdapter at h
  split at h
  . next hsame => exact (beq_iff_eq.1 hsame).symm
  . cases h

theorem Proper.save {w : World} {b b' : Batch} {e : EntityRef} (h : b.Proper w)
    (hsave : b.save w e = .ok b') : b'.Proper w := by
  obtain ⟨_, hcheck, hsave⟩ := bind_eq_ok.1 hsave
  injection hsave with hsave
  subst hsave
  apply h.saveWalk
  intro e' he'
  rw [List.mem_singleton.1 he']
  exact adapter_of_checkAdapter hcheck

theorem Proper.destroy {w : World} {b b' : Batch} {e : EntityRef} (h : b.Proper w)
    (hdestroy : b.destroy w e = .ok b') : b'.Proper w := by
  obtain ⟨_, hcheck, hdestroy⟩ := bind_eq_ok.1 hdestroy
  injection hdestroy with hdestroy
  subst hdestroy
  split
  . exact h
  . exact h.enter e true (adapter_of_checkAdapter hcheck)

theorem SavesOnly.saveWalk {w : World} {b : Batch} {visited : List Identity}
    {waiting : List EntityRef} (h : b.SavesOnly) : (b.saveWalk w visited waiting).SavesOnly := by
  fun_induction Batch.saveWalk w visited b waiting with
  | case1 => exact h
  | case2 _ _ _ _ _ ih => exact ih h
  | case3 _ _ _ _ _ _ _ ih => exact ih h
  | case4 _ _ _ _ _ _ _ _ ih => exact ih h
  | case5 visited b e waiting entity _ _ _ ih =>
    apply ih
    intro slot hslot
    rcases mem_enterSlot hslot with rfl | hslot
    . rfl
    . exact h slot hslot

theorem savesOnly_save {w : World} {store : Store} {b : Batch} {e : EntityRef}
    (h : (empty store).save w e = .ok b) : b.SavesOnly := by
  obtain ⟨_, _, h⟩ := bind_eq_ok.1 h
  injection h with h
  subst h
  apply SavesOnly.saveWalk
  intro slot hslot
  cases hslot

theorem save_empty (w : World) (e : EntityRef)
    : (empty (w.entity e).store).save w e
        =
      .ok ((empty (w.entity e).store).saveWalk w [] [e]) := by
  unfold save checkAdapter Store.sameAdapter
  simp [empty]

theorem save_of_knownRelated_eq_nil {w : World} {e : EntityRef} (he : e < w.entities.size)
    (hdestroyed : (w.entity e).destroyed = false) (hrelated : (w.entity e).knownRelated = [])
    : (empty (w.entity e).store).save w e
        =
      .ok ⟨(w.entity e).store, [⟨(w.entity e).identity, e, false⟩]⟩ := by
  rw [save_empty]
  unfold saveWalk
  split
  . next h =>
    rw [Array.getElem?_eq_none_iff] at h
    exact absurd he (Nat.not_lt.2 h)
  . next entity h =>
    rw [← entity_of_getElem? h, dif_neg (by simp), hdestroyed, if_neg (by simp)]
    unfold relatedToSave
    rw [hrelated]
    unfold saveWalk
    rfl

theorem destroy_empty (w : World) (e : EntityRef)
    : (empty (w.entity e).store).destroy w e
        =
      .ok (if (w.entity e).destroyed then empty (w.entity e).store
        else (empty (w.entity e).store).enter (w.entity e).identity e true) := by
  unfold destroy checkAdapter Store.sameAdapter
  simp [empty]

/-- An operation that an entity, which is not destroyed, gives rise to. -/
inductive Due (entity : Entity) (destroy : Bool) : WriteOp → Prop where
  | delete (hdestroy : destroy = true) (hpersisted : entity.persisted = true)
    : Due entity destroy (.delete entity.typeName entity.id)
  | put (hdestroy : destroy = false) (hpersisted : entity.persisted = false)
    : Due entity destroy (.put entity.toRecord)
  | patch (hdestroy : destroy = false) (hpersisted : entity.persisted = true)
    : Due entity destroy (.patch entity.toPatch)

theorem Due.target_eq {entity : Entity} {destroy : Bool} {op : WriteOp}
    (h : Due entity destroy op) : Adapter.target op = entity.identity := by
  cases h <;> rfl

theorem Due.persisted_of_destroy {entity : Entity} {destroy : Bool} {op : WriteOp}
    (h : Due entity destroy op) (hdestroy : destroy = true) : entity.persisted = true := by
  cases h with
  | delete _ hpersisted => exact hpersisted
  | put hdestroy' _ => simp [hdestroy] at hdestroy'
  | patch _ hpersisted => exact hpersisted

theorem planSlot_eq_some {w : World} {slot : Slot} {p : Planned} (h : planSlot w slot = some p)
    : p.entity = slot.entity
        ∧
      (w.entity slot.entity).destroyed = false
        ∧
      Due (w.entity slot.entity) slot.destroy p.op := by
  unfold planSlot at h
  dsimp only at h
  cases hdestroyed : (w.entity slot.entity).destroyed <;>
    cases hdestroy : slot.destroy <;>
    cases hpersisted : (w.entity slot.entity).persisted <;>
    simp [hdestroyed, hdestroy, hpersisted] at h
  . subst h
    exact ⟨rfl, rfl, .put rfl hpersisted⟩
  . obtain ⟨_, rfl⟩ := h
    exact ⟨rfl, rfl, .patch rfl hpersisted⟩
  . subst h
    exact ⟨rfl, rfl, .delete rfl hpersisted⟩

theorem mem_plan {w : World} {b : Batch} {p : Planned} (h : p ∈ b.plan w)
    : ∃ slot ∈ b.slots, planSlot w slot = some p :=
  List.mem_filterMap.1 h

theorem Proper.slot_eq {w : World} {b : Batch} (h : b.Proper w) {slot slot' : Slot}
    (hslot : slot ∈ b.slots) (hslot' : slot' ∈ b.slots)
    (hsame : (w.entity slot.entity).identity = (w.entity slot'.entity).identity) : slot = slot' := by
  apply List.inj_on_of_nodup_map h.distinct hslot hslot'
  rw [h.object slot hslot, h.object slot' hslot', hsame]

end ObjectStore.Batch
