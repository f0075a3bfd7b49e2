import Mathlib.Data.List.Induction
import ObjectStore.Proofs.World.Batch

/-!
This module follows a batch through the calls that fill it, while the entities go on changing. It proves
what the batch sends: at most one operation for each object, in the order in which the objects were
first entered, and for the entity that was entered last before the object was to be destroyed.
-/

namespace ObjectStore

/-- The entities stay, and stand for the same objects. Whatever else may become of them. -/
def World.KeepsObjects (w w' : World) : Prop :=
  ∀ e < w.entities.size, e < w'.entities.size ∧ (w'.entity e).identity = (w.entity e).identity

namespace Batch

def entryFor (w : World) (destroy : Bool) (e : EntityRef) : Slot :=
  ⟨(w.entity e).identity, e, destroy⟩

def enterAll (b : Batch) (log : List Slot) : Batch :=
  log.foldl (fun b entry => b.enter entry.object entry.entity entry.destroy) b

/-- The entities that a save enters one after the other, given the objects that it came across and the
entities that wait. -/
inductive Walks (w : World) (store : Store)
    : List Identity → List EntityRef → List EntityRef → Prop where
  | done {visited : List Identity} : Walks w store visited [] []
  | missing {visited : List Identity} {e : EntityRef} {waiting entered : List EntityRef}
    (he : w.entities.size ≤ e) (h : Walks w store visited waiting entered)
    : Walks w store visited (e :: waiting) entered
  | again {visited : List Identity} {e : EntityRef} {waiting entered : List EntityRef}
    (he : e < w.entities.size) (hvisited : (w.entity e).identity ∈ visited)
    (h : Walks w store visited waiting entered)
    : Walks w store visited (e :: waiting) entered
  | destroyed {visited : List Identity} {e : EntityRef} {waiting entered : List EntityRef}
    (he : e < w.entities.size) (hvisited : (w.entity e).identity ∉ visited)
    (hdestroyed : (w.entity e).destroyed = true)
    (h : Walks w store ((w.entity e).identity :: visited) waiting entered)
    : Walks w store visited (e :: waiting) entered
  | enter {visited : List Identity} {e : EntityRef} {waiting entered : List EntityRef}
    (he : e < w.entities.size) (hvisited : (w.entity e).identity ∉ visited)
    (hdestroyed : (w.entity e).destroyed = false)
    (h : Walks w store ((w.entity e).identity :: visited)
      ((relatedToSave w (.empty store) (w.entity e)).reverse ++ waiting) entered)
    : Walks w store visited (e :: waiting) (e :: entered)

/-- A batch and all that was entered into it, by calls that succeeded. Between the calls the world may
become any other one in which the entities stand for the same objects. -/
inductive Records (store : Store) : World → Batch → List Slot → Prop where
  | empty (w : World) : Records store w (.empty store) []
  | save {w : World} {b b' : Batch} {log : List Slot} {e : EntityRef} {entered : List EntityRef}
    (h : Records store w b log) (he : e < w.entities.size) (hsave : b.save w e = .ok b')
    (hentered : Walks w store [] [e] entered)
    : Records store w b' (log ++ entered.map (entryFor w false))
  | destroy {w : World} {b b' : Batch} {log : List Slot} {e : EntityRef}
    (h : Records store w b log) (he : e < w.entities.size) (hdestroy : b.destroy w e = .ok b')
    : Records store w b' (log ++ if (w.entity e).destroyed then [] else [entryFor w true e])
  | change {w w' : World} {b : Batch} {log : List Slot} (h : Records store w b log)
    (hkeeps : w.KeepsObjects w') : Records store w' b log

/-- The objects of a log, in the order in which they were first entered. -/
def objects (log : List Slot) : List Identity :=
  (log.map Slot.object).eraseDups

/-- The entry that counts for an object: the first one that destroys it, or else the last one. -/
def standing? (log : List Slot) (object : Identity) : Option Slot :=
  let named := log.filter (·.object = object)
  (named.find? (·.destroy)).or named.getLast?

variable {w w' : World} {b b' : Batch} {store : Store} {log : List Slot} {slot : Slot}

theorem getElem?_entities {e : EntityRef} (he : e < w.entities.size)
    : w.entities[e]? = some (w.entity e) := by
  unfold World.entity
  simp [he]

theorem relatedToSave_eq (hstore : b.store = store) (entity : Entity)
    : relatedToSave w b entity = relatedToSave w (.empty store) entity := by
  unfold relatedToSave
  rw [hstore]
  rfl

theorem Walks.saveWalk_eq {visited : List Identity} {waiting entered : List EntityRef}
    (h : Walks w store visited waiting entered) (hstore : b.store = store)
    : b.saveWalk w visited waiting = b.enterAll (entered.map (entryFor w false)) := by
  induction h generalizing b with
  | done =>
    unfold saveWalk
    rfl
  | missing he _ ih =>
    unfold saveWalk
    split
    . exact ih hstore
    . next hsome =>
      rw [Array.getElem?_eq_none he] at hsome
      cases hsome
  | again he hvisited _ ih =>
    unfold saveWalk
    split
    . exact ih hstore
    . next hsome =>
      rw [getElem?_entities he] at hsome
      injection hsome with hentity
      subst hentity
      rw [dif_pos hvisited]
      exact ih hstore
  | destroyed he hvisited hdestroyed _ ih =>
    unfold saveWalk
    split
    . next hnone =>
      rw [getElem?_entities he] at hnone
      cases hnone
    . next hsome =>
      rw [getElem?_entities he] at hsome
      injection hsome with hentity
      subst hentity
      rw [dif_neg hvisited, if_pos hdestroyed]
      exact ih hstore
  | enter he hvisited hdestroyed _ ih =>
    unfold saveWalk
    split
    . next hnone =>
      rw [getElem?_entities he] at hnone
      cases hnone
    . next hsome =>
      rw [getElem?_entities he] at hsome
      injection hsome with hentity
      subst hentity
      rw [dif_neg hvisited, if_neg (by simp [hdestroyed]), relatedToSave_eq hstore]
      exact ih hstore

theorem Walks.save_eq {e : EntityRef} {entered : List EntityRef}
    (h : Walks w b.store [] [e] entered) (hadapter : b.store.adapter = (w.entity e).store.adapter)
    : b.save w e = .ok (b.enterAll (entered.map (entryFor w false))) := by
  unfold save checkAdapter Store.sameAdapter
  rw [h.saveWalk_eq rfl, hadapter, beq_self_eq_true]
  rfl

/-- Every save has a walk. -/
theorem exists_walks (w : World) (b : Batch) (visited : List Identity) (waiting : List EntityRef)
    : ∃ entered, Walks w b.store visited waiting entered := by
  fun_induction saveWalk w visited b waiting with
  | case1 => exact ⟨[], .done⟩
  | case2 visited b e waiting he ih =>
    obtain ⟨entered, h⟩ := ih
    exact ⟨entered, .missing (Array.getElem?_eq_none_iff.1 he) h⟩
  | case3 visited b e waiting entity he hvisited ih =>
    obtain ⟨entered, h⟩ := ih
    have hlt := (Array.getElem?_eq_some_iff.1 he).1
    rw [← entity_of_getElem? he] at hvisited
    exact ⟨entered, .again hlt hvisited h⟩
  | case4 visited b e waiting entity he hvisited hdestroyed ih =>
    obtain ⟨entered, h⟩ := ih
    have hlt := (Array.getElem?_eq_some_iff.1 he).1
    rw [← entity_of_getElem? he] at hvisited hdestroyed h
    exact ⟨entered, .destroyed hlt hvisited hdestroyed h⟩
  | case5 visited b e waiting entity he hvisited hdestroyed ih =>
    obtain ⟨entered, h⟩ := ih
    have hlt := (Array.getElem?_eq_some_iff.1 he).1
    rw [← entity_of_getElem? he] at hvisited hdestroyed h
    rw [Bool.not_eq_true] at hdestroyed
    exact ⟨e :: entered, .enter hlt hvisited hdestroyed h⟩

theorem objects_append_singleton (log : List Slot) (entry : Slot)
    : objects (log ++ [entry])
        =
      if entry.object ∈ objects log then objects log else objects log ++ [entry.object] := by
  unfold objects
  rw [List.map_append, List.map_singleton, List.eraseDups_append]
  by_cases hmem : entry.object ∈ log.map Slot.object
  . have hknown : [entry.object].removeAll (log.map Slot.object) = [] := by
      simpa [List.removeAll] using hmem
    rw [hknown, List.eraseDups_nil, List.append_nil, if_pos (List.mem_eraseDups.2 hmem)]
  . have hnew : [entry.object].removeAll (log.map Slot.object) = [entry.object] := by
      simpa [List.removeAll] using hmem
    rw [hnew, if_neg (mt List.mem_eraseDups.1 hmem)]
    rfl

theorem filter_standing? (log : List Slot) (object : Identity)
    : (standing? log object).filter (·.destroy)
        =
      (log.filter (·.object = object)).find? (·.destroy) := by
  unfold standing?
  dsimp only
  cases hfind : (log.filter (·.object = object)).find? (·.destroy) with
  | some entry =>
    have hdestroy : entry.destroy = true := List.find?_some (p := Slot.destroy) hfind
    simp [hdestroy]
  | none =>
    rw [Option.none_or, Option.filter_eq_none_iff]
    intro entry hlast
    exact List.find?_eq_none.1 hfind entry (List.mem_of_getLast? hlast)

theorem standing?_append_singleton (log : List Slot) (entry : Slot) (object : Identity)
    : standing? (log ++ [entry]) object
        =
      if object = entry.object then
        some (((standing? log object).filter (·.destroy)).getD entry)
      else
        standing? log object := by
  rw [filter_standing?]
  unfold standing?
  dsimp only
  rw [List.filter_append]
  by_cases hobject : object = entry.object
  . have hentry : [entry].filter (fun entry => decide (entry.object = object)) = [entry] := by
      simp [hobject]
    rw [if_pos hobject, hentry, List.find?_append]
    cases (log.filter (·.object = object)).find? (·.destroy) with
    | some destroyed => rfl
    | none => cases hdestroy : entry.destroy <;> simp [hdestroy]
  . have hentry : [entry].filter (fun entry => decide (entry.object = object)) = [] := by
      simp [Ne.symm hobject]
    rw [if_neg hobject, hentry, List.append_nil]

theorem find?_enterSlot (object object' : Identity) (e : EntityRef) (destroy : Bool)
    (slots : List Slot)
    : (enterSlot object e destroy slots).find? (·.object = object')
        =
      if object' = object then
        some (((slots.find? (·.object = object')).filter (·.destroy)).getD ⟨object, e, destroy⟩)
      else
        slots.find? (·.object = object') := by
  induction slots with
  | nil =>
    unfold enterSlot
    by_cases hobject : object' = object
    . simp [hobject]
    . simp [hobject, Ne.symm hobject]
  | cons head slots ih =>
    unfold enterSlot
    by_cases hhead : head.object = object
    . by_cases hobject : object' = object
      . cases hdestroy : head.destroy <;> simp [hhead, hobject, hdestroy, Option.filter]
      . have hother : object ≠ object' := Ne.symm hobject
        cases head.destroy <;> simp [hhead, hobject, hother]
    . rw [if_neg hhead, List.find?_cons, List.find?_cons, ih]
      by_cases hobject : head.object = object'
      . have hother : object' ≠ object := by
          rw [← hobject]
          exact hhead
        simp [hobject, hother]
      . simp [hobject]

theorem nodup_objects (log : List Slot) : (objects log).Nodup := by
  induction log using List.reverseRecOn with
  | nil => exact .nil
  | append_singleton log entry ih =>
    rw [objects_append_singleton]
    split
    . exact ih
    . next hnew =>
      rw [List.nodup_append]
      refine ⟨ih, by simp, ?_⟩
      intro object hobject object' hobject' heq
      rw [List.mem_singleton] at hobject'
      rw [heq, hobject'] at hobject
      exact hnew hobject

/-- The slots of a batch are what a log of entries leaves. -/
structure Follows (b : Batch) (log : List Slot) : Prop where
  objects : b.slots.map Slot.object = objects log
  slots : ∀ object, b.slots.find? (·.object = object) = standing? log object

theorem follows_empty (store : Store) : (empty store).Follows [] :=
  ⟨rfl, fun _ => rfl⟩

theorem Follows.enter (h : b.Follows log) (entry : Slot)
    : (b.enter entry.object entry.entity entry.destroy).Follows (log ++ [entry]) := by
  constructor
  . rw [objects_append_singleton, ← h.objects]
    exact map_object_enterSlot ..
  . intro object
    rw [standing?_append_singleton, ← h.slots]
    exact find?_enterSlot ..

theorem Follows.enterAll (h : b.Follows log) (entries : List Slot)
    : (b.enterAll entries).Follows (log ++ entries) := by
  induction entries generalizing b log with
  | nil =>
    rw [List.append_nil]
    exact h
  | cons entry entries ih =>
    have hrest := ih (h.enter entry)
    rw [List.append_assoc] at hrest
    exact hrest

theorem Follows.standing?_of_mem (h : b.Follows log) (hslot : slot ∈ b.slots)
    : standing? log slot.object = some slot := by
  have hdistinct : (b.slots.map Slot.object).Nodup := by
    rw [h.objects]
    exact nodup_objects log
  rw [← h.slots]
  obtain ⟨found, hfound⟩ : ∃ found, b.slots.find? (·.object = slot.object) = some found := by
    rw [← Option.isSome_iff_exists, List.find?_isSome]
    exact ⟨slot, hslot, by simp⟩
  have hobject : found.object = slot.object := by simpa using List.find?_some hfound
  rw [hfound, List.inj_on_of_nodup_map hdistinct (List.mem_of_find?_eq_some hfound) hslot hobject]

theorem Follows.exists_slot (h : b.Follows log) {object : Identity}
    (hobject : object ∈ log.map Slot.object)
    : ∃ slot ∈ b.slots, slot.object = object := by
  have hmem : object ∈ b.slots.map Slot.object := by
    rw [h.objects]
    exact List.mem_eraseDups.2 hobject
  exact List.mem_map.1 hmem

theorem destroy_of_standing? {object : Identity} (h : standing? log object = some slot)
    : slot.destroy = true ↔ ∃ entry ∈ log, entry.object = object ∧ entry.destroy = true := by
  have hfilter := filter_standing? log object
  rw [h] at hfilter
  constructor
  . intro hdestroy
    rw [Option.filter_some, if_pos hdestroy] at hfilter
    have hmem := List.mem_of_find?_eq_some hfilter.symm
    rw [List.mem_filter] at hmem
    exact ⟨slot, hmem.1, by simpa using hmem.2, hdestroy⟩
  . rintro ⟨entry, hentry, hobject, hdestroy⟩
    by_contra hkeep
    rw [Option.filter_some, if_neg hkeep] at hfilter
    have hnone := List.find?_eq_none.1 hfilter.symm entry
    exact hnone (List.mem_filter.2 ⟨hentry, by simpa using hobject⟩) hdestroy

theorem Walks.lt_size {visited : List Identity} {waiting entered : List EntityRef}
    (h : Walks w store visited waiting entered) : ∀ e ∈ entered, e < w.entities.size := by
  induction h with
  | done => simp
  | missing _ _ ih | again _ _ _ ih | destroyed _ _ _ _ ih => exact ih
  | enter he _ _ _ ih =>
    intro e hmem
    rcases List.mem_cons.1 hmem with rfl | hmem
    . exact he
    . exact ih e hmem

/-- What the calls that fill a batch keep. -/
structure Recorded (store : Store) (w : World) (b : Batch) (log : List Slot) : Prop where
  store : b.store = store
  follows : b.Follows log
  entity_lt : ∀ entry ∈ log, entry.entity < w.entities.size
  object : ∀ entry ∈ log, entry.object = (w.entity entry.entity).identity

theorem store_enterAll (b : Batch) (entries : List Slot) : (b.enterAll entries).store = b.store := by
  induction entries generalizing b with
  | nil => rfl
  | cons entry entries ih => exact ih _

theorem Recorded.enterAll (h : Recorded store w b log) {destroy : Bool} {entered : List EntityRef}
    (hentered : ∀ e ∈ entered, e < w.entities.size)
    : Recorded store w (b.enterAll (entered.map (entryFor w destroy)))
        (log ++ entered.map (entryFor w destroy)) := by
  refine ⟨(store_enterAll b _).trans h.store, h.follows.enterAll _, ?_, ?_⟩
  . intro entry hentry
    rcases List.mem_append.1 hentry with hentry | hentry
    . exact h.entity_lt entry hentry
    . obtain ⟨e, he, rfl⟩ := List.mem_map.1 hentry
      exact hentered e he
  . intro entry hentry
    rcases List.mem_append.1 hentry with hentry | hentry
    . exact h.object entry hentry
    . obtain ⟨e, _, rfl⟩ := List.mem_map.1 hentry
      rfl

theorem Records.recorded (h : Records store w b log) : Recorded store w b log := by
  induction h with
  | empty w => exact ⟨rfl, follows_empty store, by simp, by simp⟩
  | save _ he hsave hentered ih =>
    obtain ⟨_, _, hsave⟩ := bind_eq_ok.1 hsave
    injection hsave with hsave
    rw [← hsave, hentered.saveWalk_eq ih.store]
    exact ih.enterAll hentered.lt_size
  | @destroy w b b' log e _ he hdestroy ih =>
    obtain ⟨_, _, hdestroy⟩ := bind_eq_ok.1 hdestroy
    injection hdestroy with hdestroy
    rw [← hdestroy]
    split
    . rw [List.append_nil]
      exact ih
    . have hentered : ∀ e' ∈ [e], e' < w.entities.size := by simpa using he
      exact ih.enterAll hentered
  | change _ hkeeps ih =>
    refine ⟨ih.store, ih.follows, ?_, ?_⟩
    . intro entry hentry
      exact (hkeeps _ (ih.entity_lt entry hentry)).1
    . intro entry hentry
      rw [(hkeeps _ (ih.entity_lt entry hentry)).2]
      exact ih.object entry hentry

/-- Every save that succeeds is one of those that fill a batch. -/
theorem Records.exists_of_save (h : Records store w b log) {e : EntityRef}
    (he : e < w.entities.size) (hsave : b.save w e = .ok b')
    : ∃ entered, Walks w store [] [e] entered
        ∧
      Records store w b' (log ++ entered.map (entryFor w false)) := by
  obtain ⟨entered, hentered⟩ := exists_walks w b [] [e]
  rw [h.recorded.store] at hentered
  exact ⟨entered, hentered, h.save he hsave hentered⟩

theorem planSlot_iff {p : Planned}
    : planSlot w slot = some p
        ↔
      p.entity = slot.entity
        ∧
      (w.entity slot.entity).destroyed = false
        ∧
      (slot.destroy = true ∧ (w.entity slot.entity).persisted = true
          ∧ p.op = .delete (w.entity slot.entity).typeName (w.entity slot.entity).id
        ∨
      slot.destroy = false ∧ (w.entity slot.entity).persisted = false
          ∧ p.op = .put (w.entity slot.entity).toRecord
        ∨
      slot.destroy = false ∧ (w.entity slot.entity).persisted = true
          ∧ (w.entity slot.entity).isDirty = true ∧ p.op = .patch (w.entity slot.entity).toPatch) := by
  obtain ⟨e, op⟩ := p
  unfold planSlot
  dsimp only
  cases (w.entity slot.entity).destroyed <;> cases slot.destroy <;>
    cases (w.entity slot.entity).persisted <;> cases (w.entity slot.entity).isDirty <;>
    simp [eq_comm]

theorem target_of_planSlot {p : Planned} (h : planSlot w slot = some p)
    : Adapter.target p.op = (w.entity slot.entity).identity :=
  (planSlot_eq_some h).2.2.target_eq

theorem targets_sublist {slots : List Slot}
    (hobject : ∀ slot ∈ slots, slot.object = (w.entity slot.entity).identity)
    : ((slots.filterMap (planSlot w)).map fun p => Adapter.target p.op).Sublist
        (slots.map Slot.object) := by
  induction slots with
  | nil => exact .slnil
  | cons slot slots ih =>
    have hrest := ih fun slot' hslot' => hobject slot' (List.mem_cons_of_mem slot hslot')
    rw [List.filterMap_cons]
    split
    . exact hrest.cons _
    . next p hplan =>
      rw [List.map_cons, List.map_cons, target_of_planSlot hplan,
        ← hobject slot List.mem_cons_self]
      exact hrest.cons_cons _

theorem mem_log_of_standing? {object : Identity} (h : standing? log object = some slot)
    : slot ∈ log ∧ slot.object = object := by
  have hmem : slot ∈ log.filter (·.object = object) := by
    unfold standing? at h
    rcases Option.or_eq_some_iff.1 h with hfind | ⟨_, hlast⟩
    . exact List.mem_of_find?_eq_some hfind
    . exact List.mem_of_getLast? hlast
  rw [List.mem_filter] at hmem
  exact ⟨hmem.1, by simpa using hmem.2⟩

theorem Recorded.object_of_mem (h : Recorded store w b log) (hslot : slot ∈ b.slots)
    : slot.object = (w.entity slot.entity).identity :=
  h.object slot (mem_log_of_standing? (h.follows.standing?_of_mem hslot)).1

theorem Recorded.targets_sublist (h : Recorded store w b log)
    : ((b.ops w).map Adapter.target).Sublist (objects log) := by
  rw [← h.follows.objects]
  unfold ops plan
  rw [List.map_map]
  exact Batch.targets_sublist fun slot hslot => h.object_of_mem hslot

theorem mem_ops_iff {op : WriteOp}
    : op ∈ b.ops w ↔ ∃ slot ∈ b.slots, ∃ p, planSlot w slot = some p ∧ p.op = op := by
  unfold ops plan
  simp only [List.mem_map, List.mem_filterMap]
  constructor
  . rintro ⟨p, ⟨slot, hslot, hplan⟩, hop⟩
    exact ⟨slot, hslot, p, hplan, hop⟩
  . rintro ⟨slot, hslot, p, hplan, hop⟩
    exact ⟨p, ⟨slot, hslot, hplan⟩, hop⟩

theorem Recorded.mem_ops_iff (h : Recorded store w b log) (hslot : slot ∈ b.slots) {op : WriteOp}
    (htarget : Adapter.target op = slot.object)
    : op ∈ b.ops w ↔ ∃ p, planSlot w slot = some p ∧ p.op = op := by
  rw [Batch.mem_ops_iff]
  constructor
  . rintro ⟨slot', hslot', p, hplan, rfl⟩
    rw [target_of_planSlot hplan, ← h.object_of_mem hslot'] at htarget
    have hstanding := h.follows.standing?_of_mem hslot'
    rw [htarget, h.follows.standing?_of_mem hslot] at hstanding
    injection hstanding with hsame
    rw [hsame]
    exact ⟨p, hplan, rfl⟩
  . rintro ⟨p, hplan, hop⟩
    exact ⟨slot, hslot, p, hplan, hop⟩

theorem Recorded.nodup_entities (h : Recorded store w b log)
    : ((b.plan w).map Planned.entity).Nodup := by
  have htargets : (((b.plan w).map Planned.entity).map fun e => (w.entity e).identity)
      = (b.ops w).map Adapter.target := by
    unfold ops
    rw [List.map_map, List.map_map]
    apply List.map_congr_left
    intro p hp
    obtain ⟨slot, _, hplan⟩ := mem_plan hp
    dsimp only [Function.comp_apply]
    rw [target_of_planSlot hplan, (planSlot_iff.1 hplan).1]
  apply List.Nodup.of_map fun e => (w.entity e).identity
  rw [htargets]
  exact h.targets_sublist.nodup (nodup_objects log)

/-- A batch sends at most one operation for each object, in the order of the first entries. What it
sends follows from the state of one entity at this moment: the one that was entered last, or with
the first intent to destroy the object. -/
theorem ops_of_records (h : Records store w b log)
    : ((b.ops w).map Adapter.target).Nodup
        ∧
      ((b.ops w).map Adapter.target).Sublist (objects log)
        ∧
      ∀ object ∈ log.map Slot.object, ∃ entry, standing? log object = some entry
        ∧
      (w.entity entry.entity).identity = object
        ∧
      (entry.destroy = true ↔ ∃ entry' ∈ log, entry'.object = object ∧ entry'.destroy = true)
        ∧
      ∀ op, Adapter.target op = object →
        (op ∈ b.ops w
            ↔
          (w.entity entry.entity).destroyed = false
            ∧
          (entry.destroy = true ∧ (w.entity entry.entity).persisted = true
              ∧ op = .delete object.typeName object.id
            ∨
          entry.destroy = false ∧ (w.entity entry.entity).persisted = false
              ∧ op = .put (w.entity entry.entity).toRecord
            ∨
          entry.destroy = false ∧ (w.entity entry.entity).persisted = true
              ∧ (w.entity entry.entity).isDirty = true
              ∧ op = .patch (w.entity entry.entity).toPatch)) := by
  have hrecorded := h.recorded
  have horder := hrecorded.targets_sublist
  refine ⟨horder.nodup (nodup_objects log), horder, ?_⟩
  intro object hobject
  obtain ⟨slot, hslot, rfl⟩ := hrecorded.follows.exists_slot hobject
  have hstanding := hrecorded.follows.standing?_of_mem hslot
  have hidentity := hrecorded.object_of_mem hslot
  refine ⟨slot, hstanding, hidentity.symm, destroy_of_standing? hstanding, ?_⟩
  intro op htarget
  rw [hrecorded.mem_ops_iff hslot htarget, hidentity]
  constructor
  . rintro ⟨p, hplan, rfl⟩
    exact (planSlot_iff.1 hplan).2
  . intro hdue
    exact ⟨⟨slot.entity, op⟩, planSlot_iff.2 ⟨rfl, hdue⟩, rfl⟩

def deskStore : Store := ⟨0, .empty, {}⟩

/-- A stored desk that knows of a new lamp. -/
def deskWorld : World :=
  { World.empty with
    entities := #[
      { Entity.bare deskStore (.ofName "desk") "d" true with
        links := .ofList [("lamp", .resolved (some 1))] },
      Entity.bare deskStore (.ofName "lamp") "l" false] }

def deskBatch : Batch :=
  ⟨deskStore, [⟨⟨"desk", "d"⟩, 0, true⟩, ⟨⟨"lamp", "l"⟩, 1, false⟩]⟩

-- The desk is saved, and the lamp with it, and then the desk is destroyed.
theorem ops_of_records_of_desk
    : ∃ log,
        Records deskStore deskWorld deskBatch log
          ∧
        log.map Slot.object = [⟨"desk", "d"⟩, ⟨"lamp", "l"⟩, ⟨"desk", "d"⟩]
          ∧
        ((deskBatch.ops deskWorld).map Adapter.target).Nodup
          ∧
        ((deskBatch.ops deskWorld).map Adapter.target).Sublist [⟨"desk", "d"⟩, ⟨"lamp", "l"⟩]
          ∧
        .delete "desk" "d" ∈ deskBatch.ops deskWorld
          ∧
        .put (deskWorld.entity 1).toRecord ∈ deskBatch.ops deskWorld := by
  have hlamp : Walks deskWorld deskStore [⟨"desk", "d"⟩] [1] [1] :=
    .enter (by decide) (by decide) rfl .done
  have hdesk : Walks deskWorld deskStore [] [0] [0, 1] :=
    .enter (by decide) (by decide) rfl hlamp
  have hsave : (empty deskStore).save deskWorld 0 = .ok _ := Walks.save_eq hdesk rfl
  have hsaved := Records.save (.empty deskWorld) (by decide) hsave hdesk
  have hdestroyed : Records deskStore deskWorld deskBatch _ :=
    hsaved.destroy (e := 0) (by decide) rfl
  obtain ⟨hnodup, horder, hobjects⟩ := ops_of_records hdestroyed
  obtain ⟨desk, hentry, _, _, hops⟩ := hobjects ⟨"desk", "d"⟩ (by decide)
  obtain ⟨lamp, hentry', _, _, hops'⟩ := hobjects ⟨"lamp", "l"⟩ (by decide)
  injection hentry with hentry
  injection hentry' with hentry'
  subst hentry hentry'
  refine ⟨_, hdestroyed, rfl, hnodup, horder, ?_, ?_⟩
  . exact (hops _ rfl).2 ⟨rfl, .inl ⟨rfl, rfl, rfl⟩⟩
  . exact (hops' _ rfl).2 ⟨rfl, .inr (.inl ⟨rfl, rfl, rfl⟩)⟩

end Batch

end ObjectStore
