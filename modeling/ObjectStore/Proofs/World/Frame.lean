import ObjectStore.World.Batch

/-!
This module proves which parts of a world the changes to its adapters and entities leave alone.
-/

namespace ObjectStore

namespace World

variable (w : World)

@[simp]
theorem size_modifyEntity (e : EntityRef) (f : Entity → Entity)
    : (w.modifyEntity e f).entities.size = w.entities.size := by
  simp [modifyEntity]

@[simp]
theorem size_modifyAdapter (a : AdapterRef) (f : Adapter → Adapter)
    : (w.modifyAdapter a f).adapters.size = w.adapters.size := by
  simp [modifyAdapter]

theorem entity_modifyEntity_of_ne {e e' : EntityRef} (h : e' ≠ e) (f : Entity → Entity)
    : (w.modifyEntity e f).entity e' = w.entity e' := by
  simp [entity, modifyEntity, Array.getElem?_modify, Ne.symm h]

theorem adapter_modifyAdapter_self {a : AdapterRef} (h : a < w.adapters.size)
    (f : Adapter → Adapter) : (w.modifyAdapter a f).adapter a = f (w.adapter a) := by
  simp [adapter, modifyAdapter, h, Array.getElem_modify]

theorem adapter_modifyAdapter_of_ne {a a' : AdapterRef} (h : a' ≠ a) (f : Adapter → Adapter)
    : (w.modifyAdapter a f).adapter a' = w.adapter a' := by
  simp [adapter, modifyAdapter, Array.getElem?_modify, Ne.symm h]

end World

namespace Dispatch

/-- What an operation that went through makes of its entity. -/
def noted (entity : Entity) : WriteOp → Entity
  | .put record | .patch record => entity.markPersisted record
  | .delete .. => entity.markDestroyed

variable (w : World)

theorem succeed_eq (p : Planned)
    : succeed w p = w.modifyEntity p.entity fun entity => noted entity p.op := by
  unfold succeed
  congr 1

theorem frame_destroyLocally (d : Dispatch)
    : (d.destroyLocally w).adapters = w.adapters
        ∧
      (d.destroyLocally w).entities.size = w.entities.size := by
  unfold destroyLocally
  induction d.localDestroys generalizing w with
  | nil => exact ⟨rfl, rfl⟩
  | cons e es ih =>
    obtain ⟨hadapters, hsize⟩ := ih (w.modifyEntity e Entity.markDestroyed)
    exact ⟨hadapters, hsize.trans (w.size_modifyEntity e _)⟩

theorem entity_destroyLocally {e : EntityRef} (h : e < w.entities.size) (d : Dispatch)
    : (d.destroyLocally w).entity e
        =
      if e ∈ d.localDestroys then (w.entity e).markDestroyed else w.entity e := by
  unfold destroyLocally
  induction d.localDestroys generalizing w with
  | nil => simp
  | cons e' es ih =>
    rw [List.foldl_cons, ih (w.modifyEntity e' Entity.markDestroyed) (by simpa using h)]
    by_cases he : e = e'
    . subst he
      rw [World.entity_modifyEntity w e e _ h, if_pos rfl]
      -- An entity that was destroyed already is not changed again.
      have htwice : (w.entity e).markDestroyed.markDestroyed = (w.entity e).markDestroyed := rfl
      simp [htwice]
    . rw [w.entity_modifyEntity_of_ne he]
      simp [he]

theorem frame_settleEach (results : List (Planned × Adapter.WriteResult))
    : (settleEach w results).2.adapters = w.adapters
        ∧
      (settleEach w results).2.entities.size = w.entities.size := by
  fun_induction settleEach w results with
  | case1 => exact ⟨rfl, rfl⟩
  | case2 w p rest ih =>
    rw [succeed_eq] at ih ⊢
    exact ⟨ih.1, ih.2.trans (w.size_modifyEntity p.entity _)⟩
  | case3 w p error rest failures w' heq ih =>
    rw [heq] at ih
    exact ih

theorem entity_settleEach_of_forall_ne {e : EntityRef}
    {results : List (Planned × Adapter.WriteResult)} (h : ∀ r ∈ results, r.1.entity ≠ e)
    : (settleEach w results).2.entity e = w.entity e := by
  fun_induction settleEach w results with
  | case1 => rfl
  | case2 w p rest ih =>
    rw [ih fun r hr => h r (List.mem_cons_of_mem _ hr), succeed_eq]
    exact w.entity_modifyEntity_of_ne (Ne.symm (h _ List.mem_cons_self)) _
  | case3 w p error rest failures w' heq ih =>
    rw [heq] at ih
    exact ih fun r hr => h r (List.mem_cons_of_mem _ hr)

theorem settleEach_append (results results' : List (Planned × Adapter.WriteResult))
    : (settleEach w (results ++ results')).2
        =
      (settleEach (settleEach w results).2 results').2 := by
  fun_induction settleEach w results with
  | case1 => rfl
  | case2 w p rest ih => exact ih
  | case3 w p error rest failures w' heq ih =>
    rw [heq] at ih
    exact ih

theorem entity_settleEach_middle {p : Planned} (h : p.entity < w.entities.size)
    {before after : List (Planned × Adapter.WriteResult)} {result : Adapter.WriteResult}
    (hbefore : ∀ r ∈ before, r.1.entity ≠ p.entity) (hafter : ∀ r ∈ after, r.1.entity ≠ p.entity)
    : (settleEach w (before ++ (p, result) :: after)).2.entity p.entity
        =
      match result with
      | .ok () => noted (w.entity p.entity) p.op
      | .error _ => w.entity p.entity := by
  rw [settleEach_append]
  have hsame := entity_settleEach_of_forall_ne w hbefore
  have hsize := (frame_settleEach w before).2
  cases result with
  | ok _ =>
    change (settleEach (succeed (settleEach w before).2 p) after).2.entity p.entity = _
    rw [entity_settleEach_of_forall_ne _ hafter, succeed_eq]
    rw [World.entity_modifyEntity _ _ _ _ (by rw [hsize]; exact h), if_pos rfl, hsame]
  | error e =>
    change (settleEach (settleEach w before).2 after).2.entity p.entity = _
    rw [entity_settleEach_of_forall_ne _ hafter, hsame]

end Dispatch

end ObjectStore
