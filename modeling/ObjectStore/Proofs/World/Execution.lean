import ObjectStore.Proofs.Entity.Parts
import ObjectStore.Proofs.World.Intents
import ObjectStore.Proofs.World.Run

/-!
This module follows the execution of a batch to the answer of the adapter, whatever the adapter may
answer. It proves that the answer is noted as a whole or not at all, and that each entity goes by
the result of its own operation.
-/

namespace ObjectStore

theorem Keyed.isEmpty_of_forall_contains {names : Names}
    (h : ∀ name, names.contains name = false) : names.isEmpty = true := by
  unfold Keyed.isEmpty
  rw [List.isEmpty_iff, List.eq_nil_iff_forall_not_mem]
  rintro ⟨name, value⟩ hentry
  have hcontains := (names.contains_eq_true_iff name).2
    ⟨value, (names.mem_entries_iff name value).1 hentry⟩
  rw [h name] at hcontains
  cases hcontains

namespace Entity

/-- What an entity shows after an operation on its object went through. -/
def Reflects (e : Entity) : WriteOp → Prop
  | .put _ | .patch _ => e.persisted = true ∧ e.isDirty = false
  | .delete .. => e.destroyed = true ∧ e.persisted = false

variable {e : Entity} {sent : Record}

theorem isDirty_markPersisted
    (hsent : ∀ p, e.isChanged p = true → sent.part? p = e.toRecord.part? p)
    : (e.markPersisted sent).isDirty = false := by
  have hclean : ∀ p, (e.markPersisted sent).isChanged p = false := by
    intro p
    rw [isChanged_markPersisted]
    cases hchanged : e.isChanged p with
    | false => rfl
    | true =>
      rw [hsent p hchanged, PartValue.agree_self]
      rfl
  have hattributes := Keyed.isEmpty_of_forall_contains fun name => hclean (.attr name)
  have hrelations := Keyed.isEmpty_of_forall_contains fun name => hclean (.relation name)
  have hpersisted : (e.markPersisted sent).persisted = true := rfl
  unfold isDirty
  rw [hattributes, hrelations, hpersisted]
  simp

theorem reflects_put : (e.markPersisted e.toRecord).Reflects (.put e.toRecord) :=
  ⟨rfl, isDirty_markPersisted fun _ _ => rfl⟩

theorem reflects_patch : (e.markPersisted e.toPatch).Reflects (.patch e.toPatch) := by
  refine ⟨rfl, isDirty_markPersisted ?_⟩
  intro p hchanged
  rw [part?_toPatch, if_pos hchanged]

end Entity

theorem World.identity_modifyEntity (w : World) (e e' : EntityRef) {f : Entity → Entity}
    (hf : ∀ entity : Entity, (f entity).identity = entity.identity)
    : ((w.modifyEntity e f).entity e').identity = (w.entity e').identity := by
  by_cases he : e' = e
  . subst he
    by_cases hlt : e' < w.entities.size
    . rw [w.entity_modifyEntity e' e' f hlt, if_pos rfl, hf]
    . simp [World.entity, World.modifyEntity, hlt]
  . rw [w.entity_modifyEntity_of_ne he]

namespace Dispatch

/-- The failures of operations, each with its entity, in the order of the operations. -/
def failures (w : World) (results : List (Planned × Adapter.WriteResult)) : List BatchFailure :=
  results.filterMap fun (p, result) =>
    match result with
    | .ok () => none
    | .error error => some ⟨p.entity, (w.entity p.entity).identity, error⟩

variable {w w' : World} {d : Dispatch}

theorem failures_congr (h : ∀ e, (w'.entity e).identity = (w.entity e).identity)
    (results : List (Planned × Adapter.WriteResult)) : failures w' results = failures w results := by
  unfold failures
  simp only [h]

theorem settleEach_failures (w : World) (results : List (Planned × Adapter.WriteResult))
    : (settleEach w results).1 = failures w results := by
  fun_induction settleEach w results with
  | case1 => rfl
  | case2 w p rest ih =>
    rw [ih]
    apply failures_congr
    intro e
    rw [succeed_eq]
    apply World.identity_modifyEntity
    intro entity
    cases p.op <;> rfl
  | case3 w p error rest failures' w' heq ih =>
    rw [heq] at ih
    dsimp only at ih ⊢
    rw [ih]
    rfl

theorem identity_destroyLocally (w : World) (d : Dispatch) (e : EntityRef)
    : ((d.destroyLocally w).entity e).identity = (w.entity e).identity := by
  unfold destroyLocally
  induction d.localDestroys generalizing w with
  | nil => rfl
  | cons e' es ih =>
    rw [List.foldl_cons, ih]
    exact w.identity_modifyEntity e' e fun _ => rfl

theorem failures_eq_nil_iff {results : List Adapter.WriteResult} {planned : List Planned}
    (hlength : results.length = planned.length)
    : failures w (planned.zip results) = [] ↔ ∀ result ∈ results, result = .ok () := by
  unfold failures
  rw [List.filterMap_eq_nil_iff]
  constructor
  . intro h result hresult
    have hzip : result ∈ (planned.zip results).map Prod.snd := by
      rw [List.map_snd_zip (by omega)]
      exact hresult
    obtain ⟨⟨p, _⟩, hmem, rfl⟩ := List.mem_map.1 hzip
    have hnone := h _ hmem
    dsimp only at hnone ⊢
    split at hnone
    . rfl
    . cases hnone
  . rintro h ⟨p, result⟩ hmem
    rw [h result (List.of_mem_zip hmem).2]

end Dispatch

namespace Batch

/-- A batch has gone through to the adapter, and each of its entities goes by its own result. -/
structure Settled (w w' : World) (b : Batch) (results : List Adapter.WriteResult)
    (result : Except StoreError Unit) : Prop where
  changes : ∀ (i : Nat) (p : Planned), (b.plan w)[i]? = some p →
    (w'.entity p.entity ≠ w.entity p.entity ↔ results[i]? = some (.ok ()))
  reflects : ∀ (i : Nat) (p : Planned), (b.plan w)[i]? = some p → results[i]? = some (.ok ()) →
    (w'.entity p.entity).Reflects p.op
  destroys : ∀ slot ∈ b.slots, slot.destroy = true → (w.entity slot.entity).persisted = false →
    (w'.entity slot.entity).destroyed = true ∧ (w'.entity slot.entity).persisted = false
  others : ∀ e < w.entities.size, (∀ p ∈ b.plan w, p.entity ≠ e) → e ∉ b.localDestroys w →
    w'.entity e = w.entity e
  succeeds : result = .ok () ↔ ∀ r ∈ results, r = .ok ()
  fails : (∃ r ∈ results, r ≠ .ok ()) →
    result = .error (.batch ⟨Dispatch.failures w ((b.plan w).zip results), (b.ops w).length⟩)

variable {w w' w₁ : World} {b : Batch} {store : Store} {log : List Slot} {slot : Slot}
  {answer : Except AdapterError (List Adapter.WriteResult)} {results : List Adapter.WriteResult}
  {result : Except StoreError Unit} {p : Planned}

theorem Recorded.lt_of_mem_slots (h : Recorded store w b log) (hslot : slot ∈ b.slots)
    : slot.entity < w.entities.size :=
  h.entity_lt slot (mem_log_of_standing? (h.follows.standing?_of_mem hslot)).1

theorem Recorded.lt_of_mem_plan (h : Recorded store w b log) (hp : p ∈ b.plan w)
    : p.entity < w.entities.size := by
  obtain ⟨slot, hslot, hplan⟩ := mem_plan hp
  rw [(planSlot_iff.1 hplan).1]
  exact h.lt_of_mem_slots hslot

theorem Recorded.slot_eq (h : Recorded store w b log) {slot' : Slot} (hslot : slot ∈ b.slots)
    (hslot' : slot' ∈ b.slots) (hentity : slot.entity = slot'.entity) : slot = slot' := by
  have hobject : slot.object = slot'.object := by
    rw [h.object_of_mem hslot, h.object_of_mem hslot', hentity]
  have hstanding := h.follows.standing?_of_mem hslot
  rw [hobject, h.follows.standing?_of_mem hslot'] at hstanding
  injection hstanding with hsame
  exact hsame.symm

theorem mem_localDestroys_iff {e : EntityRef}
    : e ∈ b.localDestroys w
        ↔
      ∃ slot ∈ b.slots, slot.destroy = true ∧ (w.entity e).persisted = false ∧ slot.entity = e := by
  unfold localDestroys
  simp only [List.mem_map, List.mem_filter, Bool.and_eq_true, Bool.not_eq_true']
  constructor
  . rintro ⟨slot, ⟨hslot, hdestroy, hpersisted⟩, rfl⟩
    exact ⟨slot, hslot, hdestroy, hpersisted, rfl⟩
  . rintro ⟨slot, hslot, hdestroy, hpersisted, rfl⟩
    exact ⟨slot, ⟨hslot, hdestroy, hpersisted⟩, rfl⟩

theorem Recorded.notMem_localDestroys (h : Recorded store w b log) (hp : p ∈ b.plan w)
    : p.entity ∉ b.localDestroys w := by
  rw [mem_localDestroys_iff]
  rintro ⟨slot, hslot, hdestroy, hpersisted, hentity⟩
  obtain ⟨slot', hslot', hplan⟩ := mem_plan hp
  obtain ⟨hentity', _, hdue⟩ := planSlot_iff.1 hplan
  rw [h.slot_eq hslot hslot' (hentity.trans hentity')] at hdestroy
  rw [hentity'] at hpersisted
  simp [hdestroy, hpersisted] at hdue

/-- An operation that goes through shows in its entity, which was not so before. -/
theorem reflects_noted (h : planSlot w slot = some p)
    : (Dispatch.noted (w.entity p.entity) p.op).Reflects p.op
        ∧
      Dispatch.noted (w.entity p.entity) p.op ≠ w.entity p.entity := by
  obtain ⟨hentity, _, hdue⟩ := planSlot_iff.1 h
  rw [hentity]
  rcases hdue with ⟨_, hpersisted, hop⟩ | ⟨_, hpersisted, hop⟩ | ⟨_, _, hdirty, hop⟩ <;> rw [hop]
  . refine ⟨⟨rfl, rfl⟩, ?_⟩
    intro heq
    rw [← heq] at hpersisted
    cases hpersisted
  . refine ⟨Entity.reflects_put, ?_⟩
    intro heq
    rw [← heq] at hpersisted
    cases hpersisted
  . refine ⟨Entity.reflects_patch, ?_⟩
    intro heq
    have hclean := (Entity.reflects_patch (e := w.entity slot.entity)).2
    change (Dispatch.noted (w.entity slot.entity) (.patch _)).isDirty = false at hclean
    rw [heq, hdirty] at hclean
    cases hclean

theorem entity_congr (hsame : w₁.entities = w.entities) (e : EntityRef)
    : w₁.entity e = w.entity e := by
  unfold World.entity
  rw [hsame]

/-- What is left of a world after each operation was noted with its result. -/
def noteAll (w₁ w : World) (b : Batch) (results : List Adapter.WriteResult) : World :=
  (Dispatch.settleEach ((b.dispatch w).destroyLocally w₁) ((b.plan w).zip results)).2

theorem entity_destroyLocally (hsame : w₁.entities = w.entities) {e : EntityRef}
    (he : e < w.entities.size)
    : ((b.dispatch w).destroyLocally w₁).entity e
        =
      if e ∈ b.localDestroys w then (w.entity e).markDestroyed else w.entity e := by
  rw [← hsame] at he
  rw [Dispatch.entity_destroyLocally w₁ he, entity_congr hsame]
  rfl

theorem Recorded.entity_noteAll (h : Recorded store w b log) (hsame : w₁.entities = w.entities)
    (hlength : results.length = (b.plan w).length) {r : Adapter.WriteResult}
    : (p, r) ∈ (b.plan w).zip results →
        (noteAll w₁ w b results).entity p.entity
          =
        match r with
        | .ok () => Dispatch.noted (w.entity p.entity) p.op
        | .error _ => w.entity p.entity := by
  intro hmem
  have hp : p ∈ b.plan w := (List.of_mem_zip hmem).1
  have hlt := h.lt_of_mem_plan hp
  have hdistinct : (((b.plan w).zip results).map fun r => r.1.entity).Nodup := by
    have hfst : ((b.plan w).zip results).map Prod.fst = b.plan w := List.map_fst_zip (by omega)
    have hnodup := h.nodup_entities
    rw [← hfst, List.map_map] at hnodup
    exact hnodup
  obtain ⟨before, after, hzip⟩ := List.append_of_mem hmem
  rw [hzip, List.map_append, List.map_cons, List.nodup_middle, List.nodup_cons, List.mem_append,
    not_or] at hdistinct
  obtain ⟨⟨hbefore, hafter⟩, _⟩ := hdistinct
  have hlocal := entity_destroyLocally (b := b) hsame hlt
  rw [if_neg (h.notMem_localDestroys hp)] at hlocal
  have hsize : p.entity < ((b.dispatch w).destroyLocally w₁).entities.size := by
    rw [(Dispatch.frame_destroyLocally w₁ (b.dispatch w)).2, hsame]
    exact hlt
  unfold noteAll
  rw [hzip, ← hlocal]
  apply Dispatch.entity_settleEach_middle _ hsize
  . intro q hq heq
    exact hbefore (List.mem_map.2 ⟨q, hq, heq⟩)
  . intro q hq heq
    exact hafter (List.mem_map.2 ⟨q, hq, heq⟩)

theorem entity_noteAll_of_not_planned (hsame : w₁.entities = w.entities) {e : EntityRef}
    (he : e < w.entities.size) (hplan : ∀ p ∈ b.plan w, p.entity ≠ e)
    : (noteAll w₁ w b results).entity e
        =
      if e ∈ b.localDestroys w then (w.entity e).markDestroyed else w.entity e := by
  unfold noteAll
  rw [Dispatch.entity_settleEach_of_forall_ne, entity_destroyLocally hsame he]
  intro r hr
  exact hplan r.1 (List.of_mem_zip hr).1

theorem settle_of_length_eq (hsame : w₁.entities = w.entities)
    (hlength : results.length = (b.plan w).length)
    : (b.dispatch w).settle w₁ (.ok results)
        =
      (if (Dispatch.failures w ((b.plan w).zip results)).isEmpty then .ok ()
        else .error (.batch ⟨Dispatch.failures w ((b.plan w).zip results), (b.plan w).length⟩),
        noteAll w₁ w b results) := by
  have hfailures : (Dispatch.settleEach ((b.dispatch w).destroyLocally w₁)
      ((b.plan w).zip results)).1 = Dispatch.failures w ((b.plan w).zip results) := by
    rw [Dispatch.settleEach_failures]
    apply Dispatch.failures_congr
    intro e
    rw [Dispatch.identity_destroyLocally, entity_congr hsame]
  have hplanned : (b.dispatch w).planned = b.plan w := rfl
  unfold Dispatch.settle noteAll
  dsimp only
  rw [hplanned, if_neg (not_not_intro hlength), hfailures]
  split <;> rfl

theorem Recorded.settled (h : Recorded store w b log) (hsame : w₁.entities = w.entities)
    (hlength : results.length = (b.plan w).length)
    (hresult : result = ((b.dispatch w).settle w₁ (.ok results)).1)
    : Settled w (noteAll w₁ w b results) b results result := by
  rw [settle_of_length_eq hsame hlength] at hresult
  dsimp only at hresult
  have hmem : ∀ (i : Nat) (p : Planned), (b.plan w)[i]? = some p →
      ∃ r, results[i]? = some r ∧ (p, r) ∈ (b.plan w).zip results := by
    intro i p hp
    obtain ⟨hi, _⟩ := List.getElem?_eq_some_iff.1 hp
    have hr : results[i]? = some results[i] := List.getElem?_eq_getElem (by omega)
    exact ⟨_, hr, List.mem_of_getElem? (List.getElem?_zip_eq_some.2 ⟨hp, hr⟩)⟩
  have hnoted : ∀ p ∈ b.plan w, (Dispatch.noted (w.entity p.entity) p.op).Reflects p.op
      ∧ Dispatch.noted (w.entity p.entity) p.op ≠ w.entity p.entity := by
    intro p hp
    obtain ⟨slot, _, hplan⟩ := mem_plan hp
    exact reflects_noted hplan
  constructor
  . intro i p hp
    obtain ⟨r, hr, hzip⟩ := hmem i p hp
    rw [hr, h.entity_noteAll hsame hlength hzip]
    cases r with
    | ok _ => simpa using (hnoted p (List.mem_of_getElem? hp)).2
    | error e => simp
  . intro i p hp hok
    obtain ⟨r, hr, hzip⟩ := hmem i p hp
    rw [hok] at hr
    injection hr with hr
    subst hr
    rw [h.entity_noteAll hsame hlength hzip]
    exact (hnoted p (List.mem_of_getElem? hp)).1
  . intro slot hslot hdestroy hpersisted
    have hlocal : slot.entity ∈ b.localDestroys w :=
      mem_localDestroys_iff.2 ⟨slot, hslot, hdestroy, hpersisted, rfl⟩
    rw [entity_noteAll_of_not_planned hsame (h.lt_of_mem_slots hslot), if_pos hlocal]
    . exact ⟨rfl, rfl⟩
    . intro p hp heq
      rw [← heq] at hlocal
      exact h.notMem_localDestroys hp hlocal
  . intro e he hplan hlocal
    rw [entity_noteAll_of_not_planned hsame he hplan, if_neg hlocal]
  . rw [hresult, ← Dispatch.failures_eq_nil_iff (w := w) hlength, ← List.isEmpty_iff]
    cases (Dispatch.failures w ((b.plan w).zip results)).isEmpty <;> simp
  . rintro ⟨r, hr, hfailed⟩
    have hfailures : Dispatch.failures w ((b.plan w).zip results) ≠ [] := by
      intro hnil
      exact hfailed ((Dispatch.failures_eq_nil_iff hlength).1 hnil r hr)
    rw [hresult, if_neg (mt List.isEmpty_iff.1 hfailures)]
    simp [ops]

/-- The error of a call that was answered with another number of results than there were operations. -/
def miscounted (w : World) (b : Batch) (results : List Adapter.WriteResult) : StoreError :=
  .adapter (.storage
    s!"adapter returned {results.length} results for {(b.ops w).length} operations")

theorem settle_of_length_ne (hlength : results.length ≠ (b.plan w).length)
    : (b.dispatch w).settle w₁ (.ok results) = (.error (miscounted w b results), w₁) := by
  have hplanned : (b.dispatch w).planned = b.plan w := rfl
  unfold Dispatch.settle miscounted ops
  dsimp only
  rw [hplanned, if_pos hlength, List.length_map]

/-- What has become of a batch whose call was answered. If the call failed, or was answered with
another number of results than there were operations, no entity was changed. -/
def Concluded (w w' : World) (b : Batch) (answer : Except AdapterError (List Adapter.WriteResult))
    (result : Except StoreError Unit) : Prop :=
  match answer with
  | .error e => result = .error (.adapter e) ∧ w'.entities = w.entities
  | .ok results =>
    if results.length = (b.ops w).length then
      Settled w w' b results result
    else
      result = .error (miscounted w b results) ∧ w'.entities = w.entities

theorem Recorded.concluded (h : Recorded store w b log) (hsame : w₁.entities = w.entities)
    (answer : Except AdapterError (List Adapter.WriteResult))
    : Concluded w ((b.dispatch w).settle w₁ answer).2 b answer
        ((b.dispatch w).settle w₁ answer).1 := by
  have hlength : (b.ops w).length = (b.plan w).length := List.length_map _
  unfold Concluded
  cases answer with
  | error e => exact ⟨rfl, hsame⟩
  | ok results =>
    dsimp only
    rw [hlength]
    split
    . next heq =>
      have hsettled := h.settled hsame heq rfl
      rw [settle_of_length_eq hsame heq] at hsettled ⊢
      exact hsettled
    . next hne =>
      rw [settle_of_length_ne hne]
      exact ⟨rfl, hsame⟩

theorem Recorded.settled_of_nothing (h : Recorded store w b log) (hplan : b.plan w = [])
    : Settled w ((b.dispatch w).destroyLocally w) b [] (.ok ()) := by
  have hsame : w.entities = w.entities := rfl
  have hlength : ([] : List Adapter.WriteResult).length = (b.plan w).length := by
    rw [hplan]
    rfl
  have hsettled := h.settled hsame hlength rfl
  rw [settle_of_length_eq hsame hlength] at hsettled
  unfold noteAll at hsettled
  rw [hplan] at hsettled
  exact hsettled

/-- The world when the call for a batch has just been sent. -/
def sent (w : World) (b : Batch) : World :=
  w.modifyAdapter b.store.adapter fun a => a.noteCall (.apply (b.ops w).length)

theorem entities_sent (w : World) (b : Batch) : (b.sent w).entities = w.entities := rfl

/-- To execute a batch is to send it, unless there is nothing to send. The call may take time. -/
theorem execute_of_ops_ne_nil (h : b.ops w ≠ [])
    : w.execute b false = (b.sent w).arrive (.write (b.dispatch w) false)
        ∨
      ∃ deadline, w.execute b false = (.calling (.write (b.dispatch w) false) deadline, b.sent w) := by
  rw [World.execute_of_plan_ne_nil (mt List.map_eq_nil_iff.2 h)]
  rcases w.call_cases (.write (b.dispatch w) false) with ⟨deadline, hcall⟩ | hcall
  . exact .inr ⟨deadline, hcall⟩
  . exact .inl hcall

/-- A batch goes through to the adapter as a whole or not at all. With nothing to send, it is settled at
once. Otherwise the call arrives, at once or when it is polled at its deadline, and whatever may be
answered, the batch is concluded with the answer. -/
theorem settled_or_unchanged (h : Records store w b log)
    : (b.ops w = [] →
        ∃ w', w.execute b false = (.finished (.ok .done), w') ∧ Settled w w' b [] (.ok ()))
        ∧
      (b.ops w ≠ [] →
        (b.sent w).entities = w.entities
          ∧
        (w.execute b false = (b.sent w).arrive (.write (b.dispatch w) false)
            ∨
          ∃ deadline,
            w.execute b false = (.calling (.write (b.dispatch w) false) deadline, b.sent w)))
        ∧
      (∀ w₁ : World, w₁.entities = w.entities →
        ∃ result w',
          w₁.arrive (.write (b.dispatch w) false) = (.finished (result.map fun _ => .done), w')
            ∧
          (∀ deadline, deadline ≤ w₁.clock →
            w₁.poll (.calling (.write (b.dispatch w) false) deadline)
              =
            (.finished (result.map fun _ => .done), w'))
            ∧
          Concluded w w' b ((w₁.adapter b.store.adapter).applyBatch (b.ops w)).1 result)
        ∧
      ∀ (w₁ : World) answer, w₁.entities = w.entities →
        Concluded w ((b.dispatch w).settle w₁ answer).2 b answer
          ((b.dispatch w).settle w₁ answer).1 := by
  refine ⟨?_, ?_, ?_, ?_⟩
  . intro hops
    have hplan : b.plan w = [] := List.map_eq_nil_iff.1 hops
    exact ⟨_, World.execute_of_plan_eq_nil hplan false, h.recorded.settled_of_nothing hplan⟩
  . intro hops
    exact ⟨entities_sent w b, execute_of_ops_ne_nil hops⟩
  . intro w₁ hsame
    -- The adapter has changed when its answer is noted, but the entities have not.
    have hnoted : (w₁.modifyAdapter b.store.adapter fun _ =>
        ((w₁.adapter b.store.adapter).applyBatch (b.ops w)).2).entities = w.entities := hsame
    exact ⟨_, _, rfl, fun deadline hdue => World.poll_calling_of_due hdue,
      h.recorded.concluded hnoted _⟩
  . intro w₁ answer hsame
    exact h.recorded.concluded hsame answer

def shelfStore : Store := ⟨0, .empty, {}⟩

/-- A stored shelf, a new shelf, and another new one. The adapter has lost the stored one. -/
def shelfWorld : World :=
  { World.empty with
    adapters := #[Adapter.empty.withLatency 10]
    entities := #[
      Entity.bare shelfStore (.ofName "shelf") "stored" true,
      Entity.bare shelfStore (.ofName "shelf") "new" false,
      Entity.bare shelfStore (.ofName "shelf") "unwanted" false] }

def shelfBatch : Batch :=
  ⟨shelfStore,
    [⟨⟨"shelf", "stored"⟩, 0, true⟩, ⟨⟨"shelf", "new"⟩, 1, false⟩,
      ⟨⟨"shelf", "unwanted"⟩, 2, true⟩]⟩

def shelfJob : Job := .write (shelfBatch.dispatch shelfWorld) false

/-- The stored shelf cannot be deleted, but the new one is put. -/
def shelfResults : List Adapter.WriteResult :=
  [.error (.notFound ⟨"shelf", "stored"⟩), .ok ()]

theorem settled_or_unchanged_of_refused_delete
    : ∃ log result w',
        Records shelfStore shelfWorld shelfBatch log
          ∧
        shelfWorld.execute shelfBatch false = (.calling shelfJob 10, shelfBatch.sent shelfWorld)
          ∧
        ({ shelfBatch.sent shelfWorld with clock := 10 }).arrive shelfJob
          =
        (.finished (result.map fun _ => .done), w')
          ∧
        ({ shelfBatch.sent shelfWorld with clock := 10 }).poll (.calling shelfJob 10)
          =
        (.finished (result.map fun _ => .done), w')
          ∧
        Settled shelfWorld w' shelfBatch shelfResults result
          ∧
        w'.entity 0 = shelfWorld.entity 0
          ∧
        (w'.entity 1).persisted = true
          ∧
        (w'.entity 2).destroyed = true
          ∧
        result = .error (.batch ⟨[⟨0, ⟨"shelf", "stored"⟩, .notFound ⟨"shelf", "stored"⟩⟩], 2⟩) := by
  have hnew : Walks shelfWorld shelfStore [] [1] [1] :=
    .enter (by decide) (by decide) rfl .done
  have hstored : Records shelfStore shelfWorld _ _ :=
    (Records.empty shelfWorld).destroy (e := 0) (by decide) rfl
  have hsaved := hstored.save (by decide) (hnew.save_eq rfl) hnew
  have hrecords : Records shelfStore shelfWorld shelfBatch _ :=
    hsaved.destroy (e := 2) (by decide) rfl
  obtain ⟨result, w', harrive, hpoll, hconcluded⟩ :=
    (settled_or_unchanged hrecords).2.2.1 { shelfBatch.sent shelfWorld with clock := 10 } rfl
  have hanswer : ((({ shelfBatch.sent shelfWorld with clock := 10 } : World).adapter
      shelfBatch.store.adapter).applyBatch (shelfBatch.ops shelfWorld)).1 = .ok shelfResults := by
    rw [Adapter.applyBatch_of_online rfl]
    rfl
  have hsettled : Settled shelfWorld w' shelfBatch shelfResults result := by
    unfold Concluded at hconcluded
    rw [hanswer] at hconcluded
    exact hconcluded
  refine ⟨_, result, w', hrecords, rfl, harrive, hpoll 10 (Nat.le_refl _), hsettled, ?_, ?_, ?_, ?_⟩
  . by_contra hchanged
    cases (hsettled.changes 0 _ rfl).1 hchanged
  . exact (hsettled.reflects 1 _ rfl rfl).1
  . exact (hsettled.destroys _ (.tail _ (.tail _ (.head _))) rfl rfl).1
  . exact hsettled.fails ⟨_, .head _, by simp⟩

end Batch

end ObjectStore
