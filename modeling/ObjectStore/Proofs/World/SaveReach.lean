import Mathlib.Algebra.GroupWithZero.Nat
import Mathlib.Algebra.Order.BigOperators.Group.List
import Mathlib.Algebra.Order.Group.Nat
import Mathlib.Logic.Function.Iterate
import ObjectStore.Proofs.World.SaveWalk

/-!
This module proves what a save makes of a batch. It is over after a number of passes that is known
beforehand, the slots that were there keep their places and their objects, and the objects that are added
are those that the walk reaches.
-/

namespace ObjectStore

namespace Batch

/-- A save on its way. -/
structure Walking where
  visited : List Identity
  batch : Batch
  waiting : List EntityRef

variable {w : World} {b b' : Batch} {store : Store} {slot : Slot} {slots entries : List Slot}
  {visited : List Identity} {waiting entered : List EntityRef} {e root : EntityRef}

namespace Walking

/-- One pass: it looks at the first entity that waits. -/
def next (w : World) (s : Walking) : Walking :=
  match s.waiting with
  | [] => s
  | e :: waiting =>
    match w.entities[e]? with
    | none => ⟨s.visited, s.batch, waiting⟩
    | some entity =>
      if entity.identity ∈ s.visited then
        ⟨s.visited, s.batch, waiting⟩
      else if entity.destroyed then
        ⟨entity.identity :: s.visited, s.batch, waiting⟩
      else
        ⟨entity.identity :: s.visited, s.batch.enter entity.identity e false,
          (relatedToSave w s.batch entity).reverse ++ waiting⟩

/-- What an entity can still add to those that wait. -/
def toCome (visited : List Identity) (entity : Entity) : Nat :=
  if entity.identity ∈ visited then 0 else entity.knownRelated.length

/-- How many passes are left, at most. -/
def left (w : World) (s : Walking) : Nat :=
  s.waiting.length + (w.entities.toList.map (toCome s.visited)).sum

/-- The passes together are the walk. -/
theorem saveWalk_next (w : World) (s : Walking)
    : (s.next w).batch.saveWalk w (s.next w).visited (s.next w).waiting
        =
      s.batch.saveWalk w s.visited s.waiting := by
  obtain ⟨visited, b, waiting⟩ := s
  unfold next
  cases waiting with
  | nil => rfl
  | cons e waiting =>
    dsimp only
    rw [saveWalk]
    cases w.entities[e]? with
    | none => rfl
    | some entity =>
      dsimp only
      split
      . rfl
      . split
        . rfl
        . rfl

theorem toCome_cons_le (object : Identity) (visited : List Identity) (entity : Entity)
    : toCome (object :: visited) entity ≤ toCome visited entity := by
  unfold toCome
  by_cases hvisited : entity.identity ∈ visited
  . simp [hvisited]
  . rw [if_neg hvisited]
    split
    . exact Nat.zero_le _
    . exact Nat.le_refl _

theorem sum_toCome_cons_le (object : Identity) (visited : List Identity) (entities : List Entity)
    : (entities.map (toCome (object :: visited))).sum ≤ (entities.map (toCome visited)).sum :=
  List.sum_le_sum fun entity _ => toCome_cons_le object visited entity

/-- An entity that is met for the first time adds those that it knows, and nothing later on. -/
theorem sum_toCome_cons_add_le {entities : List Entity} {entity : Entity} (hmem : entity ∈ entities)
    (hvisited : entity.identity ∉ visited)
    : (entities.map (toCome (entity.identity :: visited))).sum + entity.knownRelated.length
        ≤
      (entities.map (toCome visited)).sum := by
  induction entities with
  | nil => cases hmem
  | cons head entities ih =>
    rw [List.map_cons, List.map_cons, List.sum_cons, List.sum_cons]
    rcases List.mem_cons.mp hmem with rfl | hmem
    . have hrest := sum_toCome_cons_le entity.identity visited entities
      have hgone : toCome (entity.identity :: visited) entity = 0 := if_pos List.mem_cons_self
      have hcomes : toCome visited entity = entity.knownRelated.length := if_neg hvisited
      omega
    . have hhead := toCome_cons_le entity.identity visited head
      have hrest := ih hmem
      omega

theorem length_relatedToSave_le (w : World) (b : Batch) (entity : Entity)
    : (relatedToSave w b entity).length ≤ entity.knownRelated.length :=
  List.length_filter_le _ _

theorem left_next_lt {s : Walking} (hwaiting : s.waiting ≠ []) : (s.next w).left w < s.left w := by
  obtain ⟨visited, b, waiting⟩ := s
  cases waiting with
  | nil => exact absurd rfl hwaiting
  | cons e waiting =>
    unfold next left
    dsimp only
    cases hentity : w.entities[e]? with
    | none => simp
    | some entity =>
      dsimp only
      split
      . simp
      . next hvisited =>
        split
        . have hle := sum_toCome_cons_le entity.identity visited w.entities.toList
          dsimp only
          rw [List.length_cons]
          omega
        . have hmem := Array.mem_toList_iff.mpr (Array.mem_of_getElem? hentity)
          have hle := sum_toCome_cons_add_le hmem hvisited
          have hrelated := length_relatedToSave_le w b entity
          dsimp only
          rw [List.length_append, List.length_reverse, List.length_cons]
          omega

theorem exists_iterate_next (w : World) (s : Walking)
    : ∃ n ≤ s.left w, ∃ visited,
        (next w)^[n] s = ⟨visited, s.batch.saveWalk w s.visited s.waiting, []⟩ := by
  induction hleft : s.left w using Nat.strongRecOn generalizing s with
  | ind k ih =>
    subst hleft
    by_cases hwaiting : s.waiting = []
    . refine ⟨0, Nat.zero_le _, s.visited, ?_⟩
      obtain ⟨visited, b, waiting⟩ := s
      subst hwaiting
      rw [saveWalk]
      rfl
    . have hlt := left_next_lt (w := w) hwaiting
      obtain ⟨n, hn, visited, hdone⟩ := ih _ hlt (s.next w) rfl
      refine ⟨n + 1, by omega, visited, ?_⟩
      rw [Function.iterate_succ_apply, hdone, saveWalk_next]

end Walking

/-- How often an object is known to be behind a relationship, in the whole world. -/
def links (w : World) : Nat :=
  (w.entities.toList.map fun entity => entity.knownRelated.length).sum

theorem left_start (w : World) (b : Batch) (root : EntityRef)
    : (Walking.mk [] b [root]).left w = 1 + links w := by
  unfold Walking.left links
  congr 3

/-- What becomes of a slot: it stays as it is, or it is still to save the same object, by one of the
entries. -/
def Renewed (entries : List Slot) (slot slot' : Slot) : Prop :=
  slot' = slot
    ∨
  slot.destroy = false ∧ slot' ∈ entries ∧ slot'.object = slot.object

theorem getElem?_enterSlot {i : Nat} (hslot : slots[i]? = some slot) (entry : Slot)
    : ∃ slot', (enterSlot entry.object entry.entity entry.destroy slots)[i]? = some slot'
        ∧
      Renewed [entry] slot slot' := by
  induction slots generalizing i with
  | nil => cases hslot
  | cons head slots ih =>
    unfold enterSlot
    split
    . next hobject =>
      cases i with
      | zero =>
        injection hslot with hslot
        subst hslot
        cases hdestroy : head.destroy with
        | true => exact ⟨head, rfl, .inl rfl⟩
        | false => exact ⟨entry, rfl, .inr ⟨hdestroy, List.mem_singleton_self entry, hobject.symm⟩⟩
      | succ i => exact ⟨slot, hslot, .inl rfl⟩
    . cases i with
      | zero => exact ⟨slot, hslot, .inl rfl⟩
      | succ i => exact ih hslot

theorem getElem?_enterAll {i : Nat} (hslot : b.slots[i]? = some slot) (entries : List Slot)
    : ∃ slot', (b.enterAll entries).slots[i]? = some slot' ∧ Renewed entries slot slot' := by
  induction entries generalizing b slot with
  | nil => exact ⟨slot, hslot, .inl rfl⟩
  | cons entry entries ih =>
    obtain ⟨middle, hmiddle, hfirst⟩ := getElem?_enterSlot hslot entry
    obtain ⟨slot', hslot', hrest⟩ := ih (b := b.enter entry.object entry.entity entry.destroy) hmiddle
    refine ⟨slot', hslot', ?_⟩
    rcases hfirst with rfl | ⟨hdestroy, hentry, hobject⟩
    . rcases hrest with rfl | ⟨hdestroy, hmem, hobject⟩
      . exact .inl rfl
      . exact .inr ⟨hdestroy, List.mem_cons_of_mem entry hmem, hobject⟩
    . rw [List.mem_singleton] at hentry
      subst hentry
      rcases hrest with rfl | ⟨_, hmem, hobject'⟩
      . exact .inr ⟨hdestroy, List.mem_cons_self, hobject⟩
      . exact .inr ⟨hdestroy, List.mem_cons_of_mem middle hmem, hobject'.trans hobject⟩

theorem nodup_enterSlot (hdistinct : (slots.map Slot.object).Nodup) (entry : Slot)
    : ((enterSlot entry.object entry.entity entry.destroy slots).map Slot.object).Nodup := by
  rw [map_object_enterSlot]
  split
  . exact hdistinct
  . next hnew =>
    rw [← List.concat_eq_append]
    exact hdistinct.concat hnew

theorem nodup_enterAll (hdistinct : (b.slots.map Slot.object).Nodup) (entries : List Slot)
    : ((b.enterAll entries).slots.map Slot.object).Nodup := by
  induction entries generalizing b with
  | nil => exact hdistinct
  | cons entry entries ih => exact ih (nodup_enterSlot hdistinct entry)

theorem mem_objects_enterSlot {object : Identity} (entry : Slot)
    : object ∈ (enterSlot entry.object entry.entity entry.destroy slots).map Slot.object
        ↔
      object ∈ slots.map Slot.object ∨ object = entry.object := by
  rw [map_object_enterSlot]
  split
  . next hmem =>
    constructor
    . exact .inl
    . rintro (hobject | rfl)
      . exact hobject
      . exact hmem
  . rw [List.mem_append, List.mem_singleton]

theorem mem_objects_enterAll {object : Identity}
    : object ∈ (b.enterAll entries).slots.map Slot.object
        ↔
      object ∈ b.slots.map Slot.object ∨ object ∈ entries.map Slot.object := by
  induction entries generalizing b with
  | nil => simp [enterAll]
  | cons entry entries ih =>
    rw [List.map_cons, List.mem_cons, ← or_assoc, ← mem_objects_enterSlot]
    exact ih

theorem exists_walks_of_save (w : World) (b : Batch) (root : EntityRef)
    (hadapter : b.store.sameAdapter (w.entity root).store = true)
    : ∃ entered, Walks w b.store [] [root] entered
        ∧
      b.save w root = .ok (b.enterAll (entered.map (entryFor w false))) := by
  obtain ⟨entered, hwalk⟩ := exists_walks w b [] [root]
  exact ⟨entered, hwalk, hwalk.save_eq (beq_iff_eq.mp hadapter)⟩

theorem Walks.mem_objects_iff (h : Walks w b.store [] [root] entered)
    (hroot : root < w.entities.size) (hlives : (w.entity root).destroyed = false)
    (hone : w.OneHandle root) {object : Identity}
    : object ∈ (b.enterAll (entered.map (entryFor w false))).slots.map Slot.object
        ↔
      object ∈ b.slots.map Slot.object
        ∨
      ∃ e, w.Reaches (ToSave b.store) root e ∧ (w.entity e).identity = object := by
  rw [mem_objects_enterAll]
  refine or_congr_right ?_
  rw [List.map_map, List.mem_map]
  exact exists_congr fun e => and_congr_left' (h.mem_entered_iff hroot hlives hone)

/-- A save comes to its end. For a destroyed entity it leaves the batch as it is, and otherwise it adds the
objects to be saved that can be reached over such objects. The slots that were there stay where they are,
and those that destroy go on to do so. -/
theorem save_adds_reached (hroot : root < w.entities.size)
    (hadapter : b.store.sameAdapter (w.entity root).store = true) (hone : w.OneHandle root)
    (hdistinct : (b.slots.map Slot.object).Nodup)
    : ∃ b', b.save w root = .ok b'
        ∧
      (∃ n ≤ 1 + links w, ∃ visited, (Walking.next w)^[n] ⟨[], b, [root]⟩ = ⟨visited, b', []⟩)
        ∧
      ((w.entity root).destroyed = true → b' = b)
        ∧
      ((w.entity root).destroyed = false →
        ∀ object, object ∈ b'.slots.map Slot.object
            ↔
          object ∈ b.slots.map Slot.object
            ∨
          ∃ e, w.Reaches (ToSave b.store) root e ∧ (w.entity e).identity = object)
        ∧
      (b'.slots.map Slot.object).Nodup
        ∧
      ∀ (i : Nat) (slot : Slot), b.slots[i]? = some slot →
        ∃ slot' : Slot, b'.slots[i]? = some slot'
          ∧
        slot'.object = slot.object
          ∧
        slot'.destroy = slot.destroy
          ∧
        (slot' = slot
          ∨
        slot.destroy = false ∧ w.Reaches (ToSave b.store) root slot'.entity
          ∧ (w.entity slot'.entity).identity = slot.object) := by
  obtain ⟨entered, hwalk, hsave⟩ := exists_walks_of_save w b root hadapter
  refine ⟨_, hsave, ?_, ?_, ?_, nodup_enterAll hdistinct _, ?_⟩
  . have hpasses := Walking.exists_iterate_next w ⟨[], b, [root]⟩
    rw [left_start, hwalk.saveWalk_eq rfl] at hpasses
    exact hpasses
  . intro hdestroyed
    rw [hwalk.eq_nil_of_destroyed hdestroyed]
    rfl
  . intro hlives object
    exact hwalk.mem_objects_iff hroot hlives hone
  . intro i slot hslot
    obtain ⟨slot', hslot', hrenewed⟩ := getElem?_enterAll hslot (entered.map (entryFor w false))
    refine ⟨slot', hslot', ?_⟩
    rcases hrenewed with rfl | ⟨hdestroy, hentry, hobject⟩
    . exact ⟨rfl, rfl, .inl rfl⟩
    . obtain ⟨e, he, rfl⟩ := List.mem_map.mp hentry
      exact ⟨hobject, hdestroy.symm, .inr ⟨hdestroy, hwalk.reaches_root he, hobject⟩⟩

/-- A desk with a new lamp and a new chair that know each other, and a rug that is kept elsewhere. -/
def officeWorld : World :=
  { World.empty with
    entities := #[
      { Entity.bare deskStore (.ofName "desk") "d" true with
        links := .ofList [("lamp", .resolved (some 1)), ("chair", .resolved (some 2))] },
      { Entity.bare deskStore (.ofName "lamp") "l" false with
        links := .ofList [("chair", .resolved (some 2)), ("desk", .resolved (some 0))] },
      { Entity.bare deskStore (.ofName "chair") "c" false with
        links := .ofList [("lamp", .resolved (some 1)), ("rug", .resolved (some 3))] },
      Entity.bare ⟨1, .empty, {}⟩ (.ofName "rug") "r" false] }

/-- The lamp is to be destroyed. -/
def officeBatch : Batch :=
  ⟨deskStore, [⟨⟨"lamp", "l"⟩, 1, true⟩]⟩

theorem oneHandle_officeWorld : officeWorld.OneHandle 0 :=
  World.oneHandle_of_distinct (by decide) (by decide)

-- The lamp is passed on the way to the chair and back, and is still to be destroyed.
theorem save_adds_reached_of_office
    : ∃ b', officeBatch.save officeWorld 0 = .ok b'
        ∧
      (∃ n ≤ 7, ∃ visited,
        (Walking.next officeWorld)^[n] ⟨[], officeBatch, [0]⟩ = ⟨visited, b', []⟩)
        ∧
      (b'.slots.map Slot.object).Nodup
        ∧
      b'.slots[0]? = some ⟨⟨"lamp", "l"⟩, 1, true⟩
        ∧
      ⟨"desk", "d"⟩ ∈ b'.slots.map Slot.object
        ∧
      ⟨"chair", "c"⟩ ∈ b'.slots.map Slot.object
        ∧
      ⟨"rug", "r"⟩ ∉ b'.slots.map Slot.object := by
  obtain ⟨b', hsave, hpasses, _, hobjects, hdistinct, hslots⟩ :=
    save_adds_reached (b := officeBatch) (by decide) rfl oneHandle_officeWorld (by decide)
  have hobjects := hobjects rfl
  have hchair : officeWorld.Reaches (ToSave deskStore) 0 2 :=
    .single ⟨⟨by decide, by decide⟩, rfl, rfl⟩
  refine ⟨b', hsave, hpasses, hdistinct, ?_, ?_, ?_, ?_⟩
  . obtain ⟨slot', hslot', _, _, rfl | ⟨hdestroy, _⟩⟩ := hslots 0 _ rfl
    . exact hslot'
    . cases hdestroy
  . exact (hobjects _).mpr (.inr ⟨0, .refl, rfl⟩)
  . exact (hobjects _).mpr (.inr ⟨2, hchair, rfl⟩)
  . intro hrug
    rcases (hobjects _).mp hrug with hbefore | ⟨e, he, hidentity⟩
    . exact absurd hbefore (by decide)
    . have honly : ∀ e < officeWorld.entities.size,
          (officeWorld.entity e).identity = ⟨"rug", "r"⟩ → e = 3 := by decide
      rw [honly e (he.lt_size (by decide)) hidentity] at he
      rcases he.cases_tail with hroot | ⟨_, _, _, hsave⟩
      . cases hroot
      . exact absurd hsave.2 (by decide)

/-- The entity is not destroyed, and belongs to the adapter of the batch. -/
def Live (store : Store) (entity : Entity) : Prop :=
  entity.destroyed = false ∧ store.sameAdapter entity.store = true

/-- A save misses no changed object that is not destroyed if and only if those behind an unchanged
object are in the batch already, since the walk ends at unchanged objects. -/
theorem save_enters_changed_iff (hroot : root < w.entities.size)
    (hadapter : b.store.sameAdapter (w.entity root).store = true)
    (hlives : (w.entity root).destroyed = false) (hone : w.OneHandle root)
    : ∃ b', b.save w root = .ok b'
        ∧
      ((∀ e, w.Reaches (Live b.store) root e → (w.entity e).isDirty = true →
          (w.entity e).identity ∈ b'.slots.map Slot.object)
        ↔
      ∀ e, w.Reaches (Live b.store) root e → (w.entity e).isDirty = true →
        ¬w.Reaches (ToSave b.store) root e → (w.entity e).identity ∈ b.slots.map Slot.object) := by
  obtain ⟨entered, hwalk, hsave⟩ := exists_walks_of_save w b root hadapter
  refine ⟨_, hsave, ?_⟩
  constructor
  . intro hall e he hdirty hhidden
    rcases (hwalk.mem_objects_iff hroot hlives hone).mp (hall e he hdirty) with hbefore | ⟨e', he', heq⟩
    . exact hbefore
    . rw [hone.eq he' he heq] at he'
      exact absurd he' hhidden
  . intro hhidden e he hdirty
    rw [hwalk.mem_objects_iff hroot hlives hone]
    by_cases hreached : w.Reaches (ToSave b.store) root e
    . exact .inr ⟨e, hreached, rfl⟩
    . exact .inl (hhidden e he hdirty hreached)

/-- A phone that knows its room. The room knows its house, which alone has been changed. -/
def houseWorld : World :=
  { World.empty with
    entities := #[
      { Entity.bare deskStore (.ofName "phone") "p" true with
        links := .ofList [("room", .resolved (some 1))] },
      { Entity.bare deskStore (.ofName "room") "hall" true with
        links := .ofList [("house", .resolved (some 2))] },
      { Entity.bare deskStore (.ofName "house") "h" true with
        attributes := .ofList [("storeys", .int 3)]
        dirtyAttributes := .ofNames ["storeys"] }] }

/-- The house is to be saved. -/
def houseBatch : Batch :=
  ⟨deskStore, [⟨⟨"house", "h"⟩, 2, false⟩]⟩

theorem oneHandle_houseWorld : houseWorld.OneHandle 0 :=
  World.oneHandle_of_distinct (by decide) (by decide)

-- The house was saved before the phone.
theorem save_enters_changed_iff_of_house
    : ∃ b', houseBatch.save houseWorld 0 = .ok b'
        ∧
      ∀ e, houseWorld.Reaches (Live deskStore) 0 e → (houseWorld.entity e).isDirty = true →
        (houseWorld.entity e).identity ∈ b'.slots.map Slot.object := by
  obtain ⟨b', hsave, hiff⟩ :=
    save_enters_changed_iff (b := houseBatch) (by decide) rfl rfl oneHandle_houseWorld
  refine ⟨b', hsave, hiff.mpr ?_⟩
  intro e he hdirty _
  have honly : ∀ e < houseWorld.entities.size,
      (houseWorld.entity e).isDirty = true → (houseWorld.entity e).identity = ⟨"house", "h"⟩ := by decide
  rw [honly e (he.lt_size (by decide)) hdirty]
  exact List.mem_singleton_self _

-- Without that, the house is missed.
theorem save_misses_changed
    : ∃ b', (empty deskStore).save houseWorld 0 = .ok b'
        ∧
      (houseWorld.entity 0).destroyed = false
        ∧
      houseWorld.OneHandle 0
        ∧
      houseWorld.Reaches (Live deskStore) 0 2
        ∧
      (houseWorld.entity 2).isDirty = true
        ∧
      (houseWorld.entity 2).identity ∉ b'.slots.map Slot.object := by
  have hwalk : Walks houseWorld deskStore [] [0] [0] :=
    .enter (by decide) (by decide) rfl .done
  have hroom : houseWorld.Reaches (Live deskStore) 0 1 :=
    .single ⟨⟨by decide, by decide⟩, rfl, rfl⟩
  exact ⟨_, hwalk.save_eq rfl, rfl, oneHandle_houseWorld,
    hroom.tail ⟨⟨by decide, by decide⟩, rfl, rfl⟩, rfl, by decide⟩

end Batch

end ObjectStore
