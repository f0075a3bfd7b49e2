import ObjectStore.Proofs.World.SaveReach

/-!
This module proves that the order of the calls that fill a batch, and their repetitions, decide nothing
but the order of its operations. Which slots a batch ends with depends on the set of its calls: an object
that is to be destroyed is not saved, and what a save reaches is saved unless it is to be destroyed.
-/

namespace ObjectStore

namespace Batch

/-- A call that fills a batch. -/
inductive Intent where
  | save (e : EntityRef)
  | destroy (e : EntityRef)
deriving DecidableEq, Repr

namespace Intent

def entity : Intent → EntityRef
  | save e | destroy e => e

def record (w : World) (b : Batch) : Intent → Except StoreError Batch
  | save e => b.save w e
  | destroy e => b.destroy w e

/-- The entries that a call makes, whichever calls came before it. -/
def Enters (w : World) (store : Store) : Intent → Slot → Prop
  | save root, slot =>
    (w.entity root).destroyed = false
      ∧ ∃ e, w.Reaches (ToSave store) root e ∧ slot = entryFor w false e
  | destroy e, slot => (w.entity e).destroyed = false ∧ slot = entryFor w true e

end Intent

def recordAll (w : World) (b : Batch) (intents : List Intent) : Except StoreError Batch :=
  intents.foldlM (fun b intent => intent.record w b) b

variable {w : World} {b b' : Batch} {store store' : Store} {log : List Slot} {slot : Slot}
  {intent : Intent} {intents intents' : List Intent}

theorem exists_record (h : Records store w b log) (he : intent.entity < w.entities.size)
    (hadapter : store.sameAdapter (w.entity intent.entity).store = true)
    (hone : w.OneHandle intent.entity)
    : ∃ b' log', intent.record w b = .ok b' ∧ Records store w b' log'
        ∧
      ∀ slot, slot ∈ log' ↔ slot ∈ log ∨ intent.Enters w store slot := by
  have hstore := h.recorded.store
  cases intent with
  | save root =>
    change root < w.entities.size at he
    rw [← hstore] at hadapter
    obtain ⟨entered, hwalk, hsave⟩ := exists_walks_of_save w b root hadapter
    rw [hstore] at hwalk
    refine ⟨_, _, hsave, h.save he hsave hwalk, ?_⟩
    intro slot
    rw [List.mem_append]
    refine or_congr_right ?_
    cases hdestroyed : (w.entity root).destroyed with
    | true =>
      rw [hwalk.eq_nil_of_destroyed hdestroyed]
      simp [Intent.Enters, hdestroyed]
    | false =>
      simp only [Intent.Enters, hdestroyed, true_and, List.mem_map,
        hwalk.mem_entered_iff he hdestroyed hone]
      simp only [eq_comm]
  | destroy e =>
    change e < w.entities.size at he
    change store.sameAdapter (w.entity e).store = true at hadapter
    have hdestroy : b.destroy w e = .ok
        (if (w.entity e).destroyed then b else b.enter (w.entity e).identity e true) := by
      unfold destroy checkAdapter
      dsimp only
      rw [hstore, hadapter]
      rfl
    refine ⟨_, _, hdestroy, h.destroy he hdestroy, ?_⟩
    intro slot
    rw [List.mem_append]
    refine or_congr_right ?_
    cases hdestroyed : (w.entity e).destroyed <;> simp [Intent.Enters, hdestroyed]

theorem exists_recordAll (h : Records store w b log)
    (hknown : ∀ intent ∈ intents, intent.entity < w.entities.size
      ∧ store.sameAdapter (w.entity intent.entity).store = true ∧ w.OneHandle intent.entity)
    : ∃ b' log', b.recordAll w intents = .ok b' ∧ Records store w b' log'
        ∧
      ∀ slot, slot ∈ log' ↔ slot ∈ log ∨ ∃ intent ∈ intents, intent.Enters w store slot := by
  induction intents generalizing b log with
  | nil => exact ⟨b, log, rfl, h, by simp⟩
  | cons intent intents ih =>
    obtain ⟨⟨he, hadapter, hone⟩, hrest⟩ := List.forall_mem_cons.mp hknown
    obtain ⟨middle, log', hrecord, hrecords, hlog'⟩ := exists_record h he hadapter hone
    obtain ⟨b', log'', hrecordAll, hrecords', hlog''⟩ := ih hrecords hrest
    refine ⟨b', log'', ?_, hrecords', ?_⟩
    . unfold recordAll at hrecordAll ⊢
      rw [List.foldlM_cons, hrecord]
      exact hrecordAll
    . intro slot
      rw [hlog'', hlog', or_assoc, List.exists_mem_cons_iff]

theorem Recorded.nodup_slots (h : Recorded store w b log) : b.slots.Nodup := by
  apply List.Nodup.of_map Slot.object
  rw [h.follows.objects]
  exact nodup_objects log

/-- Where each object is entered through one entity only, a slot is an entry that destroys, or one whose
object nothing destroys. -/
theorem Recorded.mem_slots_iff (h : Recorded store w b log)
    (hone : ∀ entry ∈ log, ∀ entry' ∈ log, entry.object = entry'.object →
      entry.entity = entry'.entity)
    : slot ∈ b.slots
        ↔
      slot ∈ log
        ∧
      (slot.destroy = true ↔ ∃ entry ∈ log, entry.object = slot.object ∧ entry.destroy = true) := by
  constructor
  . intro hslot
    have hstanding := h.follows.standing?_of_mem hslot
    exact ⟨(mem_log_of_standing? hstanding).1, destroy_of_standing? hstanding⟩
  . rintro ⟨hentry, hdestroy⟩
    obtain ⟨slot', hslot', hobject⟩ := h.follows.exists_slot (List.mem_map_of_mem hentry)
    have hstanding := h.follows.standing?_of_mem hslot'
    have hentity := hone slot' (mem_log_of_standing? hstanding).1 slot hentry hobject
    have hdestroy' : slot'.destroy = slot.destroy := by
      rw [Bool.eq_iff_iff, destroy_of_standing? hstanding, hdestroy, hobject]
    have hsame : slot' = slot := by
      cases slot'
      cases slot
      simp_all
    exact hsame ▸ hslot'

theorem Intent.Enters.reaches (h : intent.Enters w store slot)
    : w.Reaches (fun _ => True) intent.entity slot.entity
        ∧
      slot.object = (w.entity slot.entity).identity := by
  cases intent with
  | save root =>
    obtain ⟨_, e, he, rfl⟩ := h
    exact ⟨he.mono fun _ _ => trivial, rfl⟩
  | destroy e =>
    obtain ⟨_, rfl⟩ := h
    exact ⟨.refl, rfl⟩

/-- What all calls together make of an object: it is to be destroyed, or else to be saved. -/
def Leaves (w : World) (store : Store) (intents : List Intent) (slot : Slot) : Prop :=
  (∃ e, .destroy e ∈ intents ∧ (w.entity e).destroyed = false ∧ slot = entryFor w true e)
    ∨
  ∃ root e, .save root ∈ intents ∧ (w.entity root).destroyed = false
    ∧ w.Reaches (ToSave store) root e ∧ .destroy e ∉ intents ∧ slot = entryFor w false e

theorem live_of_reaches {root e : EntityRef} (hroot : (w.entity root).destroyed = false)
    (he : w.Reaches (ToSave store) root e) : (w.entity e).destroyed = false := by
  cases he with
  | refl => exact hroot
  | tail _ hstep => exact Entity.destroyed_of_isDirty hstep.2.1

theorem Recorded.mem_slots_iff_leaves (h : Recorded store w b log)
    (hlog : ∀ slot, slot ∈ log ↔ ∃ intent ∈ intents, intent.Enters w store slot)
    (hone : w.OneHandleAmong fun root => ∃ intent ∈ intents, intent.entity = root)
    : slot ∈ b.slots ↔ Leaves w store intents slot := by
  have hsame : ∀ entry ∈ log, ∀ entry' ∈ log, entry.object = entry'.object →
      entry.entity = entry'.entity := by
    intro entry hentry entry' hentry' hobject
    obtain ⟨intent, hintent, henters⟩ := (hlog entry).mp hentry
    obtain ⟨intent', hintent', henters'⟩ := (hlog entry').mp hentry'
    obtain ⟨hreaches, heq⟩ := henters.reaches
    obtain ⟨hreaches', heq'⟩ := henters'.reaches
    exact hone _ _ _ _ ⟨intent, hintent, rfl⟩ ⟨intent', hintent', rfl⟩ hreaches hreaches'
      (heq.symm.trans (hobject.trans heq'))
  rw [h.mem_slots_iff hsame]
  constructor
  . rintro ⟨hslot, hdestroy⟩
    obtain ⟨intent, hintent, henters⟩ := (hlog slot).mp hslot
    cases intent with
    | destroy e => exact .inl ⟨e, hintent, henters⟩
    | save root =>
      obtain ⟨hroot, e, he, rfl⟩ := henters
      refine .inr ⟨root, e, hintent, hroot, he, ?_, rfl⟩
      intro hgone
      have hentry := (hlog (entryFor w true e)).mpr ⟨_, hgone, live_of_reaches hroot he, rfl⟩
      exact absurd (hdestroy.mpr ⟨_, hentry, rfl, rfl⟩) Bool.false_ne_true
  . rintro (⟨e, hintent, hlive, rfl⟩ | ⟨root, e, hintent, hroot, he, hkept, rfl⟩)
    . have hentry := (hlog (entryFor w true e)).mpr ⟨_, hintent, hlive, rfl⟩
      exact ⟨hentry, fun _ => ⟨_, hentry, rfl, rfl⟩, fun _ => rfl⟩
    . have hslot := (hlog (entryFor w false e)).mpr ⟨_, hintent, hroot, e, he, rfl⟩
      refine ⟨hslot, fun hdestroy => absurd hdestroy Bool.false_ne_true, ?_⟩
      rintro ⟨entry, hentry, hobject, hdestroy⟩
      obtain ⟨intent, hintent', henters⟩ := (hlog entry).mp hentry
      cases intent with
      | save root' =>
        obtain ⟨_, e', _, rfl⟩ := henters
        exact absurd hdestroy Bool.false_ne_true
      | destroy e' =>
        obtain ⟨_, rfl⟩ := henters
        have heq : e' = e := hsame _ hentry _ hslot hobject
        exact absurd (heq ▸ hintent') hkept

/-- The operation that saves an entity, if there is anything to write. -/
def SavedBy (entity : Entity) (op : WriteOp) : Prop :=
  entity.persisted = false ∧ op = .put entity.toRecord
    ∨
  entity.persisted = true ∧ entity.isDirty = true ∧ op = .patch entity.toPatch

theorem mem_ops_iff_leaves (hslots : ∀ slot, slot ∈ b.slots ↔ Leaves w store intents slot)
    (op : WriteOp)
    : op ∈ b.ops w
        ↔
      (∃ e, .destroy e ∈ intents ∧ (w.entity e).destroyed = false ∧ (w.entity e).persisted = true
        ∧ op = .delete (w.entity e).typeName (w.entity e).id)
        ∨
      ∃ root e, .save root ∈ intents ∧ (w.entity root).destroyed = false
        ∧ w.Reaches (ToSave store) root e ∧ .destroy e ∉ intents ∧ SavedBy (w.entity e) op := by
  rw [mem_ops_iff]
  constructor
  . rintro ⟨slot, hslot, p, hplan, rfl⟩
    obtain ⟨_, _, hdue⟩ := planSlot_iff.mp hplan
    rcases (hslots slot).mp hslot with ⟨e, he, hlive, rfl⟩ | ⟨root, e, hroot, hlive, he, hkept, rfl⟩
    . rcases hdue with ⟨_, hop⟩ | ⟨hsave, _⟩ | ⟨hsave, _⟩
      . exact .inl ⟨e, he, hlive, hop⟩
      . cases hsave
      . cases hsave
    . refine .inr ⟨root, e, hroot, hlive, he, hkept, ?_⟩
      rcases hdue with ⟨hdestroy, _⟩ | ⟨_, hput⟩ | ⟨_, hpatch⟩
      . cases hdestroy
      . exact .inl hput
      . exact .inr hpatch
  . rintro (⟨e, he, hlive, hop⟩ | ⟨root, e, hroot, hlive, he, hkept, hsaved⟩)
    . exact ⟨entryFor w true e, (hslots _).mpr (.inl ⟨e, he, hlive, rfl⟩), ⟨e, op⟩,
        planSlot_iff.mpr ⟨rfl, hlive, .inl ⟨rfl, hop⟩⟩, rfl⟩
    . refine ⟨entryFor w false e, (hslots _).mpr (.inr ⟨root, e, hroot, hlive, he, hkept, rfl⟩),
        ⟨e, op⟩, planSlot_iff.mpr ⟨rfl, live_of_reaches hlive he, .inr ?_⟩, rfl⟩
      rcases hsaved with hput | hpatch
      . exact .inl ⟨rfl, hput⟩
      . exact .inr ⟨rfl, hpatch⟩

theorem sameAdapter_congr (h : store.sameAdapter store' = true) (other : Store)
    : store.sameAdapter other = store'.sameAdapter other := by
  unfold Store.sameAdapter at h ⊢
  rw [beq_iff_eq.mp h]

theorem exists_leaves
    (hknown : ∀ intent ∈ intents, intent.entity < w.entities.size
      ∧ store.sameAdapter (w.entity intent.entity).store = true)
    (hone : w.OneHandleAmong fun root => ∃ intent ∈ intents, intent.entity = root)
    : ∃ b, (empty store).recordAll w intents = .ok b ∧ b.slots.Nodup
        ∧
      ∀ slot, slot ∈ b.slots ↔ Leaves w store intents slot := by
  have hknown' : ∀ intent ∈ intents, intent.entity < w.entities.size
      ∧ store.sameAdapter (w.entity intent.entity).store = true ∧ w.OneHandle intent.entity := by
    intro intent hintent
    obtain ⟨hlt, hadapter⟩ := hknown intent hintent
    exact ⟨hlt, hadapter, hone.oneHandle ⟨intent, hintent, rfl⟩⟩
  obtain ⟨b, log, hrecordAll, hrecords, hlog⟩ := exists_recordAll (.empty w) hknown'
  have hlog' : ∀ slot, slot ∈ log ↔ ∃ intent ∈ intents, intent.Enters w store slot := by
    intro slot
    rw [hlog]
    simp
  exact ⟨b, hrecordAll, hrecords.recorded.nodup_slots, fun _ =>
    hrecords.recorded.mem_slots_iff_leaves hlog' hone⟩

/-- The same calls in any other order and number succeed too, and lead to the same operations in some
other order: what is to be destroyed is deleted if it is stored, and what the saves reach is written,
unless it is to be destroyed. -/
theorem ops_perm_of_same_intents (hstores : store.sameAdapter store' = true)
    (hknown : ∀ intent ∈ intents, intent.entity < w.entities.size
      ∧ store.sameAdapter (w.entity intent.entity).store = true)
    (hone : w.OneHandleAmong fun root => ∃ intent ∈ intents, intent.entity = root)
    (hsame : ∀ intent, intent ∈ intents ↔ intent ∈ intents')
    : ∃ b b', (empty store).recordAll w intents = .ok b
        ∧
      (empty store').recordAll w intents' = .ok b'
        ∧
      (b.ops w).Perm (b'.ops w)
        ∧
      ∀ op, op ∈ b.ops w
          ↔
        (∃ e, .destroy e ∈ intents ∧ (w.entity e).destroyed = false ∧ (w.entity e).persisted = true
          ∧ op = .delete (w.entity e).typeName (w.entity e).id)
          ∨
        ∃ root e, .save root ∈ intents ∧ (w.entity root).destroyed = false
          ∧ w.Reaches (ToSave store) root e ∧ .destroy e ∉ intents ∧ SavedBy (w.entity e) op := by
  have hadapters := sameAdapter_congr hstores
  have htoSave : ToSave store = ToSave store' := by
    funext entity
    unfold ToSave
    rw [hadapters]
  obtain ⟨b, hrecordAll, hnodup, hslots⟩ := exists_leaves hknown hone
  simp only [hsame, hadapters] at hknown hone
  obtain ⟨b', hrecordAll', hnodup', hslots'⟩ := exists_leaves hknown hone
  have hperm : b.slots.Perm b'.slots := by
    rw [List.perm_ext_iff_of_nodup hnodup hnodup']
    intro slot
    rw [hslots, hslots']
    simp only [Leaves, hsame, htoSave]
  exact ⟨b, b', hrecordAll, hrecordAll', (hperm.filterMap _).map _, mem_ops_iff_leaves hslots⟩

/-- The desk and the lamp are to be saved, and the desk is to be destroyed. -/
def officeIntents : List Intent :=
  [.save 0, .destroy 0, .save 1]

def officeIntents' : List Intent :=
  [.save 1, .destroy 0, .save 1, .save 0, .destroy 0]

-- Whichever comes first, the desk is deleted, and the chair is written with the lamp.
theorem ops_perm_of_office_intents
    : ∃ b b', (empty deskStore).recordAll officeWorld officeIntents = .ok b
        ∧
      (empty ⟨0, .empty, { maxClauses := 1 }⟩).recordAll officeWorld officeIntents' = .ok b'
        ∧
      (b.ops officeWorld).Perm (b'.ops officeWorld)
        ∧
      .delete "desk" "d" ∈ b.ops officeWorld
        ∧
      .put (officeWorld.entity 2).toRecord ∈ b'.ops officeWorld := by
  have hstores : deskStore.sameAdapter ⟨0, .empty, { maxClauses := 1 }⟩ = true := rfl
  have hknown : ∀ intent ∈ officeIntents, intent.entity < officeWorld.entities.size
      ∧ deskStore.sameAdapter (officeWorld.entity intent.entity).store = true := by decide
  have hone : officeWorld.OneHandleAmong fun root => ∃ intent ∈ officeIntents, intent.entity = root := by
    refine World.oneHandleAmong_of_distinct ?_ (by decide)
    rintro _ ⟨intent, hintent, rfl⟩
    exact (hknown intent hintent).1
  have hsame : ∀ intent, intent ∈ officeIntents ↔ intent ∈ officeIntents' := by
    unfold officeIntents officeIntents'
    grind
  have hchair : officeWorld.Reaches (ToSave deskStore) 1 2 :=
    .single ⟨⟨by decide, by decide⟩, rfl, rfl⟩
  obtain ⟨b, b', hrun, hrun', hperm, hops⟩ := ops_perm_of_same_intents hstores hknown hone hsame
  refine ⟨b, b', hrun, hrun', hperm, ?_, hperm.mem_iff.mp ?_⟩
  . exact (hops _).mpr (.inl ⟨0, by decide, rfl, rfl, rfl⟩)
  . exact (hops _).mpr (.inr ⟨1, 2, by decide, rfl, hchair, by decide, .inl ⟨rfl, rfl⟩⟩)

end Batch

end ObjectStore
