import ObjectStore.Proofs.World.SavePlacement
import ObjectStore.Proofs.World.SaveReach

/-!
This module follows a save to its end and then makes it again. It proves that a save that went through
leaves nothing to be saved, neither of the entity nor of the objects that were saved with it, so that
the second save finds nothing to send.
-/

namespace ObjectStore

variable {w w' w'' w₁ : World} {root e : EntityRef} {b : Batch} {slot : Slot} {p : Planned}
  {store : Store} {log : List Slot} {entered : List EntityRef}

/-- A save is started and ends with a result, at once or as soon as its call arrives. Until then much may
happen, but not to the entities. -/
inductive World.Saves (w : World) (e : EntityRef) : Except StoreError Outcome → World → Prop where
  | atOnce {result : Except StoreError Outcome} {w' : World}
    (hstart : w.start (.save e) = (.finished result, w')) : Saves w e result w'
  | later {job : Job} {deadline : Nat} {result : Except StoreError Outcome} {w₁ w₂ w' : World}
    (hstart : w.start (.save e) = (.calling job deadline, w₁)) (hsame : w₂.entities = w₁.entities)
    (hpoll : w₂.poll (.calling job deadline) = (.finished result, w')) : Saves w e result w'

namespace Batch

theorem exists_planSlot_iff (hkeep : slot.destroy = false)
    : (∃ p, planSlot w slot = some p) ↔ (w.entity slot.entity).isDirty = true := by
  unfold planSlot Entity.isDirty
  dsimp only
  generalize w.entity slot.entity = entity
  rw [hkeep]
  cases entity.destroyed <;> cases entity.persisted <;> simp

theorem plan_eq_nil (hsaves : b.SavesOnly)
    (hclean : ∀ slot ∈ b.slots, (w.entity slot.entity).isDirty = false) : b.plan w = [] := by
  unfold plan
  rw [List.filterMap_eq_nil_iff]
  intro slot hslot
  by_contra hplan
  have hdirty := (exists_planSlot_iff (hsaves slot hslot)).mp (Option.ne_none_iff_exists'.mp hplan)
  rw [hclean slot hslot] at hdirty
  cases hdirty

theorem execute_eq_self (hsaves : b.SavesOnly) (hplan : b.plan w = []) (single : Bool)
    : w.execute b single = (.finished (.ok .done), w) := by
  have hlocal : (b.dispatch w).localDestroys = [] := Handle.localDestroys_of_savesOnly hsaves
  rw [World.execute_of_plan_eq_nil hplan]
  unfold Dispatch.destroyLocally
  rw [hlocal]
  rfl

/-- An entity that was planned to be saved is clean once this is noted. -/
theorem isDirty_noted (hplan : planSlot w slot = some p) (hkeep : slot.destroy = false)
    : (Dispatch.noted (w.entity p.entity) p.op).isDirty = false := by
  obtain ⟨hentity, hdestroyed, hdue⟩ := planSlot_eq_some hplan
  rw [hkeep] at hdue
  rw [hentity]
  exact (Entity.clean_noted_of_due hdue hdestroyed).isDirty

theorem noted_eq_of_planSlot (hplan : planSlot w slot = some p) (hkeep : slot.destroy = false)
    : (Dispatch.noted (w.entity p.entity) p.op).knownRelated = (w.entity p.entity).knownRelated
        ∧
      (Dispatch.noted (w.entity p.entity) p.op).store = (w.entity p.entity).store
        ∧
      (Dispatch.noted (w.entity p.entity) p.op).destroyed = (w.entity p.entity).destroyed := by
  obtain ⟨hentity, hdestroyed, hdue⟩ := planSlot_eq_some hplan
  rw [hkeep] at hdue
  rw [hentity]
  refine ⟨?_, ?_, (Entity.clean_noted_of_due hdue hdestroyed).destroyed.trans hdestroyed.symm⟩
  . cases p.op <;> rfl
  . cases p.op <;> rfl

/-- All that the batch had to send has gone through, and this was noted. -/
def GoesThrough (w : World) (b : Batch) (w' : World) : Prop :=
  ∃ w₁ results, w₁.entities = w.entities
    ∧
  results.length = (b.plan w).length
    ∧
  (∀ result ∈ results, result = .ok ())
    ∧
  w'.entities = (noteAll w₁ w b results).entities

theorem GoesThrough.congr (h : b.GoesThrough w w') (hsame : w''.entities = w'.entities)
    : b.GoesThrough w w'' := by
  obtain ⟨w₁, results, hbefore, hlength, hok, hafter⟩ := h
  exact ⟨w₁, results, hbefore, hlength, hok, hsame.trans hafter⟩

theorem GoesThrough.size_eq (h : b.GoesThrough w w') : w'.entities.size = w.entities.size := by
  obtain ⟨w₁, results, hsame, _, _, hafter⟩ := h
  unfold noteAll at hafter
  rw [hafter, (Dispatch.frame_settleEach _ _).2, (Dispatch.frame_destroyLocally _ _).2, hsame]

/-- An entity that was planned to be saved was noted as saved, and no other one is changed. -/
theorem GoesThrough.entity_cases (h : b.GoesThrough w w') (hrecorded : Recorded store w b log)
    (hsaves : b.SavesOnly) (he : e < w.entities.size)
    : (∃ p ∈ b.plan w, p.entity = e ∧ w'.entity e = Dispatch.noted (w.entity e) p.op)
        ∨
      (∀ p ∈ b.plan w, p.entity ≠ e) ∧ w'.entity e = w.entity e := by
  obtain ⟨w₁, results, hsame, hlength, hok, hafter⟩ := h
  rw [entity_congr hafter]
  by_cases hplanned : ∃ p ∈ b.plan w, p.entity = e
  . obtain ⟨p, hp, rfl⟩ := hplanned
    have hfst : ((b.plan w).zip results).map Prod.fst = b.plan w := List.map_fst_zip (by omega)
    rw [← hfst] at hp
    obtain ⟨⟨p, result⟩, hzip, rfl⟩ := List.mem_map.mp hp
    have hnoted := hrecorded.entity_noteAll hsame hlength hzip
    rw [hok result (List.of_mem_zip hzip).2] at hnoted
    exact .inl ⟨p, (List.of_mem_zip hzip).1, rfl, hnoted⟩
  . have hothers : ∀ p ∈ b.plan w, p.entity ≠ e := fun p hp heq => hplanned ⟨p, hp, heq⟩
    have hnoted : (noteAll w₁ w b results).entity e = _ :=
      entity_noteAll_of_not_planned hsame he hothers
    rw [Handle.localDestroys_of_savesOnly hsaves, if_neg List.not_mem_nil] at hnoted
    exact .inr ⟨hothers, hnoted⟩

theorem goesThrough_of_plan_eq_nil (hsaves : b.SavesOnly) (hplan : b.plan w = [])
    : b.GoesThrough w w := by
  have hlocal : (b.dispatch w).localDestroys = [] := Handle.localDestroys_of_savesOnly hsaves
  refine ⟨w, [], rfl, ?_, by simp, ?_⟩
  . rw [hplan]
    rfl
  . unfold noteAll Dispatch.destroyLocally
    rw [hplan, hlocal]
    rfl

theorem goesThrough_of_arrive {single : Bool} (hsame : w₁.entities = w.entities)
    (harrive : w₁.arrive (.write (b.dispatch w) single) = (.finished (.ok .done), w'))
    : b.GoesThrough w w' := by
  obtain ⟨results, hanswer, hlength, hok⟩ := World.arrive_write_eq_ok (congrArg Prod.fst harrive)
  have hwritten : ∀ f, (w₁.modifyAdapter (b.dispatch w).adapter f).entities = w.entities :=
    fun _ => hsame
  have hworld := congrArg Prod.snd harrive
  unfold World.arrive World.applyDispatch at hworld
  dsimp only at hworld
  rw [hanswer, settle_of_length_eq (hwritten _) hlength] at hworld
  exact ⟨_, results, hwritten _, hlength, hok, congrArg World.entities hworld.symm⟩

end Batch

theorem World.Saves.goesThrough (h : w.Saves root (.ok .done) w')
    : (w.saveBatch root).GoesThrough w w' := by
  have hsaves : (w.saveBatch root).SavesOnly := Batch.savesOnly_save (w.save_eq_saveBatch root)
  have hstarts : w.start (.save root) = w.execute (w.saveBatch root) true := w.start_save root
  by_cases hplan : (w.saveBatch root).plan w = []
  . rw [Batch.execute_eq_self hsaves hplan] at hstarts
    cases h with
    | atOnce hstart =>
      rw [hstarts] at hstart
      injection hstart with _ hworld
      subst hworld
      exact Batch.goesThrough_of_plan_eq_nil hsaves hplan
    | later hstart _ _ =>
      rw [hstarts] at hstart
      cases hstart
  . rw [World.execute_of_plan_ne_nil hplan] at hstarts
    rcases w.call_cases (.write ((w.saveBatch root).dispatch w) true) with ⟨_, hcall⟩ | hcall
    . rw [hcall] at hstarts
      cases h with
      | atOnce hstart =>
        rw [hstarts] at hstart
        cases hstart
      | later hstart hsame hpoll =>
        rw [hstarts] at hstart
        injection hstart with htask hworld
        injection htask with hjob _
        subst hjob hworld
        unfold World.poll at hpoll
        dsimp only at hpoll
        split at hpoll
        . exact Batch.goesThrough_of_arrive hsame hpoll
        . cases hpoll
    . rw [hcall] at hstarts
      cases h with
      | atOnce hstart =>
        rw [hstarts] at hstart
        -- The call changes no more than the log of the adapter.
        exact Batch.goesThrough_of_arrive (by rfl) hstart
      | later hstart _ _ =>
        rw [hstarts] at hstart
        cases hstart

namespace Batch

/-- The batch of a save, with the entities that the walk entered. -/
theorem exists_walks_saveBatch (hroot : root < w.entities.size)
    : ∃ entered, Walks w (w.entity root).store [] [root] entered
        ∧
      Recorded (w.entity root).store w (w.saveBatch root) (entered.map (entryFor w false)) := by
  obtain ⟨entered, hwalk, hrecords⟩ :=
    (Records.empty w).exists_of_save hroot (w.save_eq_saveBatch root)
  exact ⟨entered, hwalk, hrecords.recorded⟩

theorem Recorded.entity_mem_entered (h : Recorded store w b (entered.map (entryFor w false)))
    (hslot : slot ∈ b.slots) : slot.entity ∈ entered := by
  have hentry := (mem_log_of_standing? (h.follows.standing?_of_mem hslot)).1
  obtain ⟨e, he, rfl⟩ := List.mem_map.mp hentry
  exact he

/-- Where no two entities stand for the same object, each one that is entered has a slot. -/
theorem Recorded.exists_slot_of_entered (h : Recorded store w b (entered.map (entryFor w false)))
    (hwalk : Walks w store [] [root] entered) (hone : w.OneHandle root) (he : e ∈ entered)
    : ∃ slot ∈ b.slots, slot.entity = e := by
  have hobject : (entryFor w false e).object ∈ (entered.map (entryFor w false)).map Slot.object :=
    List.mem_map_of_mem (List.mem_map_of_mem he)
  obtain ⟨slot, hslot, hobject⟩ := h.follows.exists_slot hobject
  refine ⟨slot, hslot, ?_⟩
  apply hone.eq (hwalk.reaches_root (h.entity_mem_entered hslot)) (hwalk.reaches_root he)
  rw [← h.object_of_mem hslot, hobject]
  rfl

/-- What was recorded is clean afterwards. -/
theorem GoesThrough.isDirty_of_mem_slots (h : b.GoesThrough w w') (hrecorded : Recorded store w b log)
    (hsaves : b.SavesOnly) (hslot : slot ∈ b.slots) : (w'.entity slot.entity).isDirty = false := by
  have hkeep := hsaves slot hslot
  rcases h.entity_cases hrecorded hsaves (hrecorded.lt_of_mem_slots hslot) with
    ⟨p, hp, hentity, hnoted⟩ | ⟨hothers, hsame⟩
  . obtain ⟨slot', hslot', hplan⟩ := mem_plan hp
    rw [hnoted, ← hentity]
    exact isDirty_noted hplan (hsaves slot' hslot')
  . rw [hsame]
    by_contra hdirty
    rw [Bool.not_eq_false] at hdirty
    obtain ⟨p, hplan⟩ := (exists_planSlot_iff hkeep).mpr hdirty
    exact hothers p (List.mem_filterMap.mpr ⟨slot, hslot, hplan⟩) (planSlot_eq_some hplan).1

theorem GoesThrough.frame (h : b.GoesThrough w w') (hrecorded : Recorded store w b log)
    (hsaves : b.SavesOnly) (he : e < w.entities.size)
    : (w'.entity e).knownRelated = (w.entity e).knownRelated
        ∧
      (w'.entity e).store = (w.entity e).store
        ∧
      (w'.entity e).destroyed = (w.entity e).destroyed := by
  rcases h.entity_cases hrecorded hsaves he with ⟨p, hp, rfl, hnoted⟩ | ⟨_, hsame⟩
  . obtain ⟨slot, hslot, hplan⟩ := mem_plan hp
    rw [hnoted]
    exact noted_eq_of_planSlot hplan (hsaves slot hslot)
  . rw [hsame]
    exact ⟨rfl, rfl, rfl⟩

/-- What is still to be saved had to be saved before. -/
theorem GoesThrough.dirty_before (h : b.GoesThrough w w') (hrecorded : Recorded store w b log)
    (hsaves : b.SavesOnly) (he : e < w.entities.size) (hdirty : (w'.entity e).isDirty = true)
    : (w.entity e).isDirty = true := by
  rcases h.entity_cases hrecorded hsaves he with ⟨p, hp, rfl, _⟩ | ⟨_, hsame⟩
  . obtain ⟨slot, hslot, hplan⟩ := mem_plan hp
    have hclean := h.isDirty_of_mem_slots hrecorded hsaves hslot
    rw [← (planSlot_eq_some hplan).1, hdirty] at hclean
    cases hclean
  . rw [hsame] at hdirty
    exact hdirty

theorem savesOnly_saveBatch (w : World) (root : EntityRef) : (w.saveBatch root).SavesOnly :=
  savesOnly_save (w.save_eq_saveBatch root)

/-- Nothing that a save reaches is left to be saved. -/
theorem GoesThrough.isDirty_of_reaches (h : (w.saveBatch root).GoesThrough w w')
    (hroot : root < w.entities.size) (hlives : (w.entity root).destroyed = false)
    (hone : w.OneHandle root) (he : w.Reaches (ToSave (w.entity root).store) root e)
    : (w'.entity e).isDirty = false := by
  obtain ⟨entered, hwalk, hrecorded⟩ := exists_walks_saveBatch hroot
  have hentered := (hwalk.mem_entered_iff hroot hlives hone).mpr he
  obtain ⟨slot, hslot, rfl⟩ := hrecorded.exists_slot_of_entered hwalk hone hentered
  exact h.isDirty_of_mem_slots hrecorded (savesOnly_saveBatch w root) hslot

theorem GoesThrough.isDirty_root (h : (w.saveBatch root).GoesThrough w w')
    (hroot : root < w.entities.size) (hone : w.OneHandle root)
    : (w'.entity root).isDirty = false := by
  obtain ⟨_, _, hrecorded⟩ := exists_walks_saveBatch hroot
  by_contra hdirty
  rw [Bool.not_eq_false] at hdirty
  have hbefore := h.dirty_before hrecorded (savesOnly_saveBatch w root) hroot hdirty
  rw [h.isDirty_of_reaches hroot (Entity.destroyed_of_isDirty hbefore) hone .refl] at hdirty
  cases hdirty

/-- What a second save reaches was reached by the first one. -/
theorem GoesThrough.reaches_before (h : (w.saveBatch root).GoesThrough w w')
    (hroot : root < w.entities.size) (he : w'.Reaches (ToSave store) root e)
    : w.Reaches (ToSave store) root e := by
  obtain ⟨_, _, hrecorded⟩ := exists_walks_saveBatch hroot
  have hsaves := savesOnly_saveBatch w root
  induction he with
  | refl => exact .refl
  | tail _ hstep ih =>
    obtain ⟨⟨hlt, hknown⟩, hdirty, hadapter⟩ := hstep
    rw [h.size_eq] at hlt
    rw [(h.frame hrecorded hsaves (ih.lt_size hroot)).1] at hknown
    rw [(h.frame hrecorded hsaves hlt).2.1] at hadapter
    exact ih.tail ⟨⟨hlt, hknown⟩, h.dirty_before hrecorded hsaves hlt hdirty, hadapter⟩

/-- A second save finds nothing to send. -/
theorem GoesThrough.plan_again (h : (w.saveBatch root).GoesThrough w w')
    (hroot : root < w.entities.size) (hone : w.OneHandle root)
    : (w'.saveBatch root).plan w' = [] := by
  obtain ⟨_, _, hrecorded⟩ := exists_walks_saveBatch hroot
  obtain ⟨_, hstore, hdestroyed⟩ := h.frame hrecorded (savesOnly_saveBatch w root) hroot
  obtain ⟨_, hwalk, hagain⟩ := exists_walks_saveBatch (h.size_eq.symm ▸ hroot)
  apply plan_eq_nil (savesOnly_saveBatch w' root)
  intro slot hslot
  have hentered := hagain.entity_mem_entered hslot
  -- Of a destroyed entity the walk enters nothing.
  have hlives : (w.entity root).destroyed = false := by
    by_contra hgone
    rw [Bool.not_eq_false, ← hdestroyed] at hgone
    rw [hwalk.eq_nil_of_destroyed hgone] at hentered
    cases hentered
  have hreaches := hwalk.reaches_root hentered
  rw [hstore] at hreaches
  exact h.isDirty_of_reaches hroot hlives hone (h.reaches_before hroot hreaches)

end Batch

/-- A save that goes through leaves nothing of what it recorded to be saved. To save the entity again is
to make no call and to change nothing. -/
theorem World.save_idempotent (hroot : root < w.entities.size) (hone : w.OneHandle root)
    (hsaves : w.Saves root (.ok .done) w')
    : ∃ b, (Batch.empty (w.entity root).store).save w root = .ok b
        ∧
      (w'.entity root).isDirty = false
        ∧
      (∀ slot ∈ b.slots, (w'.entity slot.entity).isDirty = false)
        ∧
      ∀ w'' : World, w''.entities = w'.entities →
        w''.start (.save root) = (.finished (.ok .done), w'') := by
  obtain ⟨_, _, hrecorded⟩ := Batch.exists_walks_saveBatch hroot
  have hthrough := hsaves.goesThrough
  refine ⟨_, w.save_eq_saveBatch root, hthrough.isDirty_root hroot hone, ?_, ?_⟩
  . intro slot hslot
    exact hthrough.isDirty_of_mem_slots hrecorded (Batch.savesOnly_saveBatch w root) hslot
  . intro w'' hsame
    have hplan := (hthrough.congr hsame).plan_again hroot hone
    exact (w''.start_save root).trans
      (Batch.execute_eq_self (Batch.savesOnly_saveBatch w'' root) hplan true)

namespace World

/-- A new desk and a new lamp that know each other, and an adapter that takes its time. -/
def pairWorld : World :=
  { World.empty with
    adapters := #[Adapter.empty.withLatency 10]
    entities := #[
      { Entity.bare Batch.deskStore (.ofName "desk") "d" false with
        links := .ofList [("lamp", .resolved (some 1))] },
      { Entity.bare Batch.deskStore (.ofName "lamp") "l" false with
        links := .ofList [("desk", .resolved (some 0))] }] }

def pairBatch : Batch :=
  ⟨Batch.deskStore, [⟨⟨"desk", "d"⟩, 0, false⟩, ⟨⟨"lamp", "l"⟩, 1, false⟩]⟩

def pairSent : World :=
  pairWorld.modifyAdapter 0 fun a => a.noteCall (.apply 2)

theorem saveBatch_pairWorld : pairWorld.saveBatch 0 = pairBatch := by
  have hlamp : Batch.Walks pairWorld Batch.deskStore [⟨"desk", "d"⟩] [1] [1] :=
    .enter (by decide) (by decide) rfl (.again (by decide) (by decide) .done)
  have hdesk : Batch.Walks pairWorld Batch.deskStore [] [0] [0, 1] :=
    .enter (by decide) (by decide) rfl hlamp
  exact hdesk.saveWalk_eq rfl

-- The call is on its way while the clock goes on.
theorem save_idempotent_of_pair
    : ∃ w', pairWorld.Saves 0 (.ok .done) w'
        ∧
      (pairWorld.entity 1).isDirty = true
        ∧
      (w'.entity 0).isDirty = false
        ∧
      (w'.entity 1).isDirty = false
        ∧
      w'.start (.save 0) = (.finished (.ok .done), w') := by
  have hone : pairWorld.OneHandle 0 := oneHandle_of_distinct (by decide) (by decide)
  have hstart : pairWorld.start (.save 0)
      = (.calling (.write (pairBatch.dispatch pairWorld) true) 10, pairSent) := by
    rw [start_save]
    rw [saveBatch_pairWorld]
    rfl
  have hsame : ({ pairSent with clock := 10 } : World).entities = pairSent.entities := rfl
  have hended : (({ pairSent with clock := 10 } : World).poll
      (.calling (.write (pairBatch.dispatch pairWorld) true) 10)).1 = .finished (.ok .done) := by
    rw [poll_calling_of_due (Nat.le_refl 10)]
    unfold arrive applyDispatch
    dsimp only
    rw [Adapter.applyBatch_of_online rfl]
    rfl
  have hsaves : pairWorld.Saves 0 (.ok .done) _ :=
    .later hstart hsame (Prod.ext hended rfl)
  obtain ⟨b, hsave, hclean, hslots, hagain⟩ := save_idempotent (by decide) hone hsaves
  rw [save_eq_saveBatch, saveBatch_pairWorld] at hsave
  injection hsave with hsave
  subst hsave
  exact ⟨_, hsaves, rfl, hclean, hslots _ (.tail _ (.head _)), hagain _ rfl⟩

end World

end ObjectStore
