import ObjectStore.Proofs.World.Coherence
import ObjectStore.Proofs.World.Run
import ObjectStore.Proofs.World.SavedEdits

/-!
This module follows an entity that is edited and saved, by one save at a time, where edits may come
while a save is under way and a save may fail. It proves that the saves in between make no
difference: once a last save has gone through, the stored record and the entity are what the edits
make of them.
-/

namespace ObjectStore

namespace Edit

def perform (w : World) (e : EntityRef) : Edit → World
  | set name v => (w.set e name v).2
  | setRelatedId name id => (w.setRelatedId e name id).2

end Edit

theorem find?_zip {α β : Type} {q : α → Bool} {l : List α} {r : List β} {a : α}
    (hlength : r.length = l.length) (h : l.find? q = some a)
    : ∃ b ∈ r, (l.zip r).find? (fun z => q z.1) = some (a, b) := by
  induction l generalizing r with
  | nil => cases h
  | cons head l ih =>
    cases r with
    | nil => cases hlength
    | cons b r =>
      rw [List.zip_cons_cons, List.find?_cons]
      rw [List.find?_cons] at h
      cases hq : q head with
      | true =>
        rw [hq] at h
        injection h with h
        subst h
        exact ⟨b, List.mem_cons_self, rfl⟩
      | false =>
        rw [hq] at h
        obtain ⟨b', hb', hfind⟩ := ih (Nat.succ.inj hlength) h
        exact ⟨b', List.mem_cons_of_mem b hb', hfind⟩

namespace Dispatch

theorem settle_eq_ok {w : World} {d : Dispatch}
    {answer : Except AdapterError (List Adapter.WriteResult)} (h : (d.settle w answer).1 = .ok ())
    : ∃ results, answer = .ok results
        ∧
      results.length = d.planned.length
        ∧
      ∀ result ∈ results, result = .ok () := by
  unfold settle at h
  cases answer with
  | error e => cases h
  | ok results =>
    dsimp only at h
    split at h
    . cases h
    . next hlength =>
      rw [not_not] at hlength
      refine ⟨results, rfl, hlength, ?_⟩
      rw [← failures_eq_nil_iff (w := d.destroyLocally w) hlength, ← settleEach_failures,
        ← List.isEmpty_iff]
      split at h
      . next hempty => exact hempty
      . cases h

end Dispatch

namespace World

theorem arrive_write_eq_ok {w : World} {d : Dispatch} {single : Bool}
    (h : (w.arrive (.write d single)).1 = .finished (.ok .done))
    : ∃ results, ((w.adapter d.adapter).applyBatch d.ops).1 = .ok results
        ∧
      results.length = d.planned.length
        ∧
      ∀ result ∈ results, result = .ok () := by
  unfold World.arrive applyDispatch at h
  dsimp only at h
  injection h with h
  apply Dispatch.settle_eq_ok
    (w := w.modifyAdapter d.adapter fun _ => ((w.adapter d.adapter).applyBatch d.ops).2)
  revert h
  cases (d.settle _ ((w.adapter d.adapter).applyBatch d.ops).1).1 with
  | ok _ => exact fun _ => rfl
  | error e =>
    intro h
    cases single <;> cases h

/-- To save an entity is to send a batch and, if there was something to send, to wait until the call
arrives. -/
theorem perform_save (w : World) (e : EntityRef)
    : (((w.saveBatch e).begin w).1 = []
          ∧
        w.perform (.save e) = (.finished (.ok .done), ((w.saveBatch e).begin w).2))
        ∨
      ∃ clock, ((w.saveBatch e).begin w).1 = [⟨(w.saveBatch e).dispatch w, none⟩]
        ∧
      w.perform (.save e)
        =
      ({ ((w.saveBatch e).begin w).2 with clock }).arrive
        (.write ((w.saveBatch e).dispatch w) true) := by
  unfold perform
  rw [start_save]
  by_cases hplan : (w.saveBatch e).plan w = []
  . rw [Batch.begin_of_plan_eq_nil hplan, execute_of_plan_eq_nil hplan]
    exact .inl ⟨rfl, rfl⟩
  . rw [Batch.begin_of_plan_ne_nil hplan, execute_of_plan_ne_nil hplan]
    have hfinishes : ∀ clock, ((w.arrival (.write ((w.saveBatch e).dispatch w) true) clock).arrive
        (.write ((w.saveBatch e).dispatch w) true)).1.isFinished = true := fun clock => rfl
    obtain ⟨clock, hrun⟩ := run_call hfinishes
    exact .inr ⟨clock, rfl, hrun⟩

end World

namespace Handle

variable {x : Handle} {w : World} {d : Dispatch} {op : WriteOp}

theorem accepted_of_arrive_eq_ok {single : Bool}
    (h : (w.arrive (.write d single)).1 = .finished (.ok .done))
    (hwaiting : x.standing ⟨d, none⟩ = .waiting op)
    : x.standing ((⟨d, none⟩ : PendingWrite).apply w).1 = .accepted op := by
  obtain ⟨results, hanswer, hlength, hok⟩ := World.arrive_write_eq_ok h
  obtain ⟨p, hfind, rfl⟩ := exists_planned_of_waiting rfl hwaiting
  obtain ⟨result, hresult, hzip⟩ := find?_zip hlength hfind
  rw [hok result hresult] at hzip
  rw [answer_apply]
  unfold standing
  dsimp only at hzip ⊢
  rw [hanswer]
  dsimp only
  rw [if_pos hlength, hzip]

end Handle

namespace Batch

theorem exists_slot_of_save {w : World} {store : Store} {b : Batch} {e : EntityRef}
    (he : e < w.entities.size) (hdestroyed : (w.entity e).destroyed = false)
    (hsave : (empty store).save w e = .ok b)
    : b.store = store ∧ ∃ slot ∈ b.slots, slot.object = (w.entity e).identity := by
  obtain ⟨entered, hentered, hrecords⟩ := (Records.empty w).exists_of_save he hsave
  have hrecorded := hrecords.recorded
  refine ⟨hrecorded.store, hrecorded.follows.exists_slot ?_⟩
  cases hentered with
  | missing hmissing _ => exact absurd he (Nat.not_lt.2 hmissing)
  | again _ hvisited _ => cases hvisited
  | destroyed _ _ hdestroyed' _ =>
    rw [hdestroyed] at hdestroyed'
    cases hdestroyed'
  | enter _ _ _ _ => exact List.mem_cons_self

theorem plan_eq_nil_of_begin {w : World} {b : Batch} (h : (b.begin w).1 = []) : b.plan w = [] := by
  by_contra hplan
  rw [begin_of_plan_ne_nil hplan] at h
  cases h

end Batch

/-- A world, and the save of the entity that is under way, if there is one. -/
structure SaveSession where
  world : World
  pending : Option PendingWrite

/-- What goes on outside of an entity and its record. Related objects may become known, and the adapter
may go offline, come back, and refuse changes. -/
structure Aside (x : Handle) (w w' : World) : Prop where
  valid : x.Valid w'
  entity : ∃ links hasMany, x.entityIn w' = { x.entityIn w with links, hasMany }
  stored : x.stored w' = x.stored w

/-- A step of a session, with the edits that it makes. A save begins only when none is under way. -/
inductive SaveStep (x : Handle) : SaveSession → List Edit → SaveSession → Prop where
  | edit {w : World} {pending : Option PendingWrite} (edit : Edit)
    : SaveStep x ⟨w, pending⟩ [edit] ⟨edit.perform w x.entity, pending⟩
  | save {w : World} {b : Batch} (hproper : b.Proper w) (hsaves : b.SavesOnly)
    (halone : x.WritesAlone w b)
    : SaveStep x ⟨w, none⟩ [] ⟨(b.begin w).2, (b.begin w).1.head?⟩
  | apply {w : World} {c : PendingWrite} (hanswer : c.answer = none)
    : SaveStep x ⟨w, some c⟩ [] ⟨(c.apply w).2, some (c.apply w).1⟩
  | complete {w : World} {c : PendingWrite} (hanswer : c.answer ≠ none)
    : SaveStep x ⟨w, some c⟩ [] ⟨c.complete w, none⟩
  | aside {w w' : World} {pending : Option PendingWrite} (h : Aside x w w')
    : SaveStep x ⟨w, pending⟩ [] ⟨w', pending⟩

namespace SaveSession

/-- A run, with all edits that it makes. -/
inductive Run (x : Handle) (w : World) : SaveSession → List Edit → Prop where
  | start : Run x w ⟨w, none⟩ []
  | step {s s' : SaveSession} {edits new : List Edit} (hrun : Run x w s edits)
    (hstep : SaveStep x s new s') : Run x w s' (edits ++ new)

/-- A world in which an entity has just been created or read. -/
structure Start (x : Handle) (w : World) : Prop where
  valid : x.Valid w
  destroyed : (x.entityIn w).destroyed = false
  hasValue : ∀ p, x.isChanged w p = true → (x.current? w p).isSome = true
  stored : (x.entityIn w).persisted = true → (x.stored w).isSome = true

/-- The standing of the save under way, if there is one. -/
def standing (x : Handle) : Option PendingWrite → Standing
  | none => .idle
  | some c => x.standing c

/-- What every run keeps, given what the edits alone would make of the entity. -/
structure Kept (x : Handle) (before : Option Record) (edited : Entity) (s : SaveSession) : Prop where
  valid : x.Valid s.world
  follows : Entity.Follows edited (x.entityIn s.world)
  sent : ∀ c, s.pending = some c → x.Owns c.dispatch ∧ c.dispatch.localDestroys = []
  fits : Entity.Fits before edited (x.entityIn s.world) (x.stored s.world) (standing x s.pending)

variable {x : Handle} {w w' w₀ : World} {before : Option Record} {edited : Entity}
  {edits new : List Edit} {s s' : SaveSession} {pending : Option PendingWrite}

theorem frame_perform (w : World) (e : EntityRef) (edit : Edit)
    : (edit.perform w e).adapters = w.adapters
        ∧
      (edit.perform w e).entities.size = w.entities.size := by
  have htry : ∀ f, (w.tryModify e f).2.adapters = w.adapters
      ∧ (w.tryModify e f).2.entities.size = w.entities.size := by
    intro f
    unfold World.tryModify
    split
    . exact ⟨rfl, w.size_modifyEntity e _⟩
    . exact ⟨rfl, rfl⟩
  cases edit with
  | set name v => exact htry _
  | setRelatedId name id => exact htry _

theorem entityIn_perform (hx : x.Valid w) (edit : Edit)
    : x.entityIn (edit.perform w x.entity) = edit.make (x.entityIn w) := by
  have htry : edit.perform w x.entity = (w.tryModify x.entity edit.change).2 := by
    cases edit <;> rfl
  rw [htry]
  unfold World.tryModify Edit.make Handle.entityIn
  dsimp only
  cases edit.change (w.entity x.entity) with
  | ok e => exact EditSession.entityIn_modifyEntity hx e
  | error err => rfl

theorem Kept.edit (h : Kept x before edited ⟨w, pending⟩) (edit : Edit)
    : Kept x before (edit.make edited) ⟨edit.perform w x.entity, pending⟩ := by
  have hvalid : x.Valid w := h.valid
  obtain ⟨hadapters, hsize⟩ := frame_perform w x.entity edit
  have hentity := entityIn_perform hvalid edit
  have hstored : x.stored (edit.perform w x.entity) = x.stored w := by
    unfold Handle.stored World.adapter
    rw [hadapters]
  refine ⟨?_, ?_, h.sent, ?_⟩
  . apply hvalid.of_sameObject hadapters hsize
    rw [hentity]
    rcases edit.edited_or_eq (x.entityIn w) with hsame | hedited
    . rw [hsame]
      exact ⟨rfl, rfl⟩
    . exact ⟨hedited.identity, hedited.store⟩
  . dsimp only
    rw [hentity]
    exact h.follows.edit edit
  . dsimp only
    rw [hentity, hstored]
    exact h.fits.make h.follows edit

theorem Kept.save (h : Kept x before edited ⟨w, none⟩) {b : Batch} (hproper : b.Proper w)
    (hsaves : b.SavesOnly) (halone : x.WritesAlone w b)
    : Kept x before edited ⟨(b.begin w).2, (b.begin w).1.head?⟩ := by
  have hvalid : x.Valid w := h.valid
  have hentity := Handle.entityIn_begin_of_savesOnly hvalid hsaves
  have hfits : Entity.UpToDate before edited (x.entityIn w) (x.stored w) := h.fits
  refine ⟨hvalid.begin b, ?_, ?_, ?_⟩
  . dsimp only
    rw [hentity]
    exact h.follows
  . intro c hc
    rw [Handle.dispatch_of_mem_begin (List.mem_of_head? hc)]
    exact ⟨hvalid.owns_dispatch hproper halone, Handle.localDestroys_of_savesOnly hsaves⟩
  . dsimp only
    rw [hentity, Handle.stored_begin hvalid]
    cases hhead : (b.begin w).1.head? with
    | none => exact hfits
    | some c =>
      unfold standing
      dsimp only
      rcases Handle.standing_of_mem_begin (x := x) (List.mem_of_head? hhead) with
        hidle | ⟨op, hwaiting, _, slot, hslot, hdue⟩
      . rw [hidle]
        exact hfits
      . rw [hwaiting]
        rw [hsaves slot hslot] at hdue
        exact ⟨hfits, h.follows.sends_of_due hdue⟩

theorem Kept.apply {c : PendingWrite} (h : Kept x before edited ⟨w, some c⟩)
    (hanswer : c.answer = none)
    : Kept x before edited ⟨(c.apply w).2, some (c.apply w).1⟩ := by
  have hvalid : x.Valid w := h.valid
  obtain ⟨howns, hlocal⟩ := h.sent c rfl
  have hfits := h.fits
  refine ⟨hvalid.apply, h.follows, ?_, ?_⟩
  . intro c' hc'
    injection hc' with hc'
    rw [← hc']
    exact ⟨howns, hlocal⟩
  . unfold standing at hfits ⊢
    dsimp only at hfits ⊢
    rw [Handle.entityIn_apply]
    rcases Handle.find?_planned_of_answer_eq_none (x := x) hanswer with ⟨_, hidle⟩ | ⟨p, _, hwaiting⟩
    . obtain ⟨hstanding, hstored⟩ := Handle.apply_of_idle hvalid howns hanswer hidle
      rw [hidle] at hfits
      rw [hstanding, hstored]
      exact hfits
    . obtain ⟨hrefused, haccepted⟩ := Handle.apply_of_waiting hvalid howns hanswer hwaiting
      rw [hwaiting] at hfits
      by_cases hrefuses : x.Refuses w p.op
      . obtain ⟨hstanding, hstored⟩ := hrefused hrefuses
        rw [hstanding, hstored]
        exact hfits.1
      . obtain ⟨hstanding, hstored⟩ := haccepted hrefuses
        rw [hstanding, hstored]
        exact ⟨hfits.2, hfits.2.stores_overlay hfits.1⟩

theorem Kept.entityIn_complete_of_idle {c : PendingWrite} (h : Kept x before edited ⟨w, some c⟩)
    (hanswer : c.answer ≠ none) (hidle : x.standing c = .idle)
    : x.entityIn (c.complete w) = x.entityIn w := by
  obtain ⟨howns, hlocal⟩ := h.sent c rfl
  rcases Handle.complete_of_idle h.valid howns hanswer hidle with hsame | ⟨hmem, _⟩
  . exact hsame
  . rw [hlocal] at hmem
    cases hmem

theorem Kept.complete {c : PendingWrite} (h : Kept x before edited ⟨w, some c⟩)
    (hsound : edited.Sound) (hanswer : c.answer ≠ none)
    : Kept x before edited ⟨c.complete w, none⟩ := by
  have hvalid : x.Valid w := h.valid
  have howns := (h.sent c rfl).1
  have hfits := h.fits
  unfold standing at hfits
  dsimp only at hfits
  have hstored : x.stored (c.complete w) = x.stored w := Handle.stored_complete
  rcases Handle.not_waiting_of_answer (x := x) hanswer with hidle | ⟨op, haccepted⟩
  . have hentity := h.entityIn_complete_of_idle hanswer hidle
    rw [hidle] at hfits
    refine ⟨hvalid.complete howns hanswer, ?_, by simp, ?_⟩
    . dsimp only
      rw [hentity]
      exact h.follows
    . dsimp only
      rw [hentity, hstored]
      exact hfits
  . have hentity := Handle.complete_of_accepted hvalid howns haccepted
    rw [haccepted] at hfits
    refine ⟨hvalid.complete howns hanswer, ?_, by simp, ?_⟩
    . dsimp only
      rw [hentity]
      exact h.follows.noted hfits.1.isDelete
    . dsimp only
      rw [hentity, hstored]
      exact h.follows.upToDate_noted hfits.1 hfits.2 hsound.hasValue

theorem Kept.aside (h : Kept x before edited ⟨w, pending⟩) (haside : Aside x w w')
    : Kept x before edited ⟨w', pending⟩ := by
  obtain ⟨links, hasMany, hentity⟩ := haside.entity
  have hchanged : ∀ p, (x.entityIn w').isChanged p = (x.entityIn w).isChanged p := by
    intro p
    rw [hentity]
    cases p <;> rfl
  refine ⟨haside.valid, ⟨?_, ?_, ?_⟩, h.sent, ?_⟩
  . dsimp only
    rw [hentity]
    exact h.follows.data.trans ⟨rfl, rfl, rfl, rfl, rfl, rfl⟩
  . dsimp only
    rw [hentity]
    exact h.follows.persisted
  . dsimp only
    simp only [hchanged]
    exact h.follows.changed
  . dsimp only
    rw [haside.stored]
    apply h.fits.of_same_parts _ _ hchanged
    . dsimp only
      rw [hentity]
    . dsimp only
      rw [hentity]
      rfl

theorem Kept.step (h : Kept x before edited s) (hsound : edited.Sound)
    (hstep : SaveStep x s new s') : Kept x before (Edit.makeAll edited new) s' := by
  cases hstep with
  | edit edit => exact h.edit edit
  | save hproper hsaves halone => exact h.save hproper hsaves halone
  | apply hanswer => exact h.apply hanswer
  | complete hanswer => exact h.complete hsound hanswer
  | aside haside => exact h.aside haside

theorem Start.sound (h : Start x w) : (x.entityIn w).Sound := ⟨h.destroyed, h.hasValue⟩

theorem Start.kept (h : Start x w) : Kept x (x.stored w) (x.entityIn w) ⟨w, none⟩ := by
  refine ⟨h.valid, ⟨.refl _, fun hp => hp, fun _ hp => hp⟩, by simp, ?_⟩
  intro hpersisted
  refine ⟨h.stored hpersisted, ?_⟩
  intro p hp
  unfold Entity.wanted
  rw [if_pos ⟨hpersisted, hp⟩]
  exact PartValue.agree_self _

theorem Run.kept (hstart : Start x w) (hrun : Run x w s edits)
    : Kept x (x.stored w) (Edit.makeAll (x.entityIn w) edits) s := by
  induction hrun with
  | start => exact hstart.kept
  | step _ hstep ih =>
    rw [Edit.makeAll_append]
    exact ih.step (hstart.sound.makeAll _) hstep

theorem aside_clock (hx : x.Valid w) (clock : Nat) : Aside x w { w with clock } :=
  ⟨⟨hx.entity_lt, hx.adapter_lt, hx.identity, hx.store, hx.faults, hx.wellKept⟩, ⟨_, _, rfl⟩, rfl⟩

theorem aside_modifyAdapter (hx : x.Valid w) {a : AdapterRef} {f : Adapter → Adapter}
    (hrecords : ∀ adapter : Adapter, ∀ typeName id,
      (f adapter).record? typeName id = adapter.record? typeName id)
    (hfaults : ∀ adapter : Adapter, (f adapter).faults = adapter.faults)
    : Aside x w (w.modifyAdapter a f) :=
  ⟨hx.modifyAdapter hrecords hfaults, ⟨_, _, rfl⟩, Handle.stored_modifyAdapter hx hrecords⟩

/-- The entity is saved for the last time. The save ends well, or else it may fail because of related
objects, but not because of the entity. -/
structure FinalSave (x : Handle) (w : World) : Prop where
  alone : x.WritesAlone w (w.saveBatch x.entity)
  lands : (w.perform (.save x.entity)).1 = .finished (.ok .done) ∨ x.Accepting w

theorem clean_of_not_planned (hx : x.Valid w) (hdestroyed : (x.entityIn w).destroyed = false)
    (halone : x.WritesAlone w (w.saveBatch x.entity))
    (hnone : ∀ p ∈ (w.saveBatch x.entity).plan w, p.entity ≠ x.entity) : (x.entityIn w).Clean := by
  have hsave := w.save_eq_saveBatch x.entity
  have hproper := (Batch.proper_empty w _).save hsave
  obtain ⟨hstore, slot, hslot, hobject⟩ :=
    Batch.exists_slot_of_save hx.entity_lt hdestroyed hsave
  have hdestroy : slot.destroy = false := Batch.savesOnly_save hsave slot hslot
  have hentity : slot.entity = x.entity := by
    apply halone _ slot hslot
    . rw [← hproper.object slot hslot, hobject]
      exact hx.identity
    . exact (congrArg Store.adapter hstore).trans hx.store
  obtain ⟨object, e, destroy⟩ := slot
  obtain rfl : e = x.entity := hentity
  obtain rfl : destroy = false := hdestroy
  have hplan : ∀ op, Batch.planSlot w ⟨object, x.entity, false⟩ ≠ some ⟨x.entity, op⟩ := by
    intro op hop
    exact hnone _ (List.mem_filterMap.2 ⟨_, hslot, hop⟩) rfl
  have hpersisted : (x.entityIn w).persisted = true := by
    by_contra hunsaved
    rw [Bool.not_eq_true] at hunsaved
    exact hplan _ (Batch.planSlot_iff.2 ⟨rfl, hdestroyed, .inr (.inl ⟨rfl, hunsaved, rfl⟩)⟩)
  refine ⟨hpersisted, hdestroyed, ?_⟩
  by_contra hdirty
  rw [Bool.not_eq_false] at hdirty
  exact hplan _
    (Batch.planSlot_iff.2 ⟨rfl, hdestroyed, .inr (.inr ⟨rfl, hpersisted, hdirty, rfl⟩)⟩)

theorem writesAlone_of_knownRelated_eq_nil (hx : x.Valid w)
    (hdestroyed : (x.entityIn w).destroyed = false) (hrelated : (x.entityIn w).knownRelated = [])
    : x.WritesAlone w (w.saveBatch x.entity) :=
  Handle.writesAlone_save hx.entity_lt hdestroyed hrelated (w.save_eq_saveBatch x.entity)

theorem Kept.accepted_of_accepting {c : PendingWrite} {op : WriteOp}
    (h : Kept x before edited ⟨w, some c⟩) (hanswer : c.answer = none)
    (hwaiting : x.standing c = .waiting op) (haccepting : x.Accepting w)
    : x.standing (c.apply w).1 = .accepted op := by
  have hfits := h.fits
  unfold standing at hfits
  dsimp only at hfits
  rw [hwaiting] at hfits
  rcases Handle.apply_cases h.valid haccepting (h.sent c rfl).1 hanswer (by
      intro op' hwaiting' hput
      rw [hwaiting] at hwaiting'
      injection hwaiting' with heq
      subst heq
      rcases hfits.2.fits with hput' | hpersisted
      . rw [hput] at hput'
        cases hput'
      . exact (hfits.1 hpersisted).1) with ⟨hidle, _⟩ | ⟨op', hwaiting', haccepted, _⟩
  . rw [hwaiting] at hidle
    cases hidle
  . rw [hwaiting] at hwaiting'
    injection hwaiting' with heq
    rw [heq]
    exact haccepted

/-- A save whose call arrives leaves the entity clean if there is nothing to be saved, and also if the
adapter lets the operation through and the entity was not edited since it was sent. -/
theorem Kept.arrive_write {d : Dispatch} (h : Kept x before edited ⟨w, some ⟨d, none⟩⟩)
    (hsound : edited.Sound) (hclean : x.standing ⟨d, none⟩ = .idle → (x.entityIn w).Clean)
    (hdue : ∀ op, x.standing ⟨d, none⟩ = .waiting op → Batch.Due (x.entityIn w) false op)
    (hlands : (w.arrive (.write d true)).1 = .finished (.ok .done) ∨ x.Accepting w)
    : Kept x before edited ⟨(w.arrive (.write d true)).2, none⟩
        ∧
      (x.entityIn (w.arrive (.write d true)).2).Clean := by
  have hvalid : x.Valid w := h.valid
  have howns := (h.sent _ rfl).1
  have happlied := h.apply rfl
  have hanswer : ((⟨d, none⟩ : PendingWrite).apply w).1.answer ≠ none := Option.some_ne_none _
  rw [PendingWrite.arrive_write]
  refine ⟨happlied.complete hsound hanswer, ?_⟩
  rcases Handle.find?_planned_of_answer_eq_none (x := x) (c := ⟨d, none⟩) rfl with
    ⟨_, hidle⟩ | ⟨p, _, hwaiting⟩
  . obtain ⟨hidle', _⟩ := Handle.apply_of_idle hvalid howns rfl hidle
    rw [happlied.entityIn_complete_of_idle hanswer hidle']
    exact hclean hidle
  . have haccepted : x.standing ((⟨d, none⟩ : PendingWrite).apply w).1 = .accepted p.op := by
      rcases hlands with hended | haccepting
      . exact Handle.accepted_of_arrive_eq_ok hended hwaiting
      . exact h.accepted_of_accepting rfl hwaiting haccepting
    rw [Handle.complete_of_accepted happlied.valid (happlied.sent _ rfl).1 haccepted]
    apply Entity.clean_noted_of_due (hdue p.op hwaiting)
    exact h.follows.data.destroyed.trans hsound.destroyed

theorem Kept.perform_save (h : Kept x before edited ⟨w, none⟩) (hsound : edited.Sound)
    (hfinal : FinalSave x w)
    : Kept x before edited ⟨(w.perform (.save x.entity)).2, none⟩
        ∧
      (x.entityIn (w.perform (.save x.entity)).2).Clean := by
  have hvalid : x.Valid w := h.valid
  have hsave := w.save_eq_saveBatch x.entity
  have hsaves : (w.saveBatch x.entity).SavesOnly := Batch.savesOnly_save hsave
  have hdestroyed := h.follows.data.destroyed.trans hsound.destroyed
  have hbegun := h.save ((Batch.proper_empty w _).save hsave) hsaves hfinal.alone
  have hentity := Handle.entityIn_begin_of_savesOnly hvalid hsaves
  have hclean := clean_of_not_planned hvalid hdestroyed hfinal.alone
  have hlands := hfinal.lands
  rcases w.perform_save x.entity with ⟨hnone, hperform⟩ | ⟨clock, hsome, hperform⟩
  . have hplan := Batch.plan_eq_nil_of_begin hnone
    rw [hperform]
    rw [hnone] at hbegun
    refine ⟨hbegun, ?_⟩
    dsimp only
    rw [hentity]
    apply hclean
    simp [hplan]
  . rw [hsome] at hbegun
    rw [hperform] at hlands ⊢
    -- Until the call arrives, only the clock moves on.
    apply (hbegun.aside (aside_clock hbegun.valid clock)).arrive_write hsound
    . intro hidle
      change (x.entityIn ((w.saveBatch x.entity).begin w).2).Clean
      rw [hentity]
      apply hclean
      rcases Handle.find?_planned_of_answer_eq_none (x := x)
        (c := ⟨(w.saveBatch x.entity).dispatch w, none⟩) rfl with ⟨hfind, _⟩ | ⟨p, _, hwaiting⟩
      . intro p hp
        simpa using List.find?_eq_none.1 hfind p hp
      . rw [hidle] at hwaiting
        cases hwaiting
    . intro op hwaiting
      change Batch.Due (x.entityIn ((w.saveBatch x.entity).begin w).2) false op
      rw [hentity]
      apply Handle.due_of_mem_ops_begin (b := w.saveBatch x.entity) hsaves
      apply List.mem_filterMap.2
      refine ⟨_, by rw [hsome]; exact List.mem_singleton_self _, ?_⟩
      rw [hwaiting]
      rfl
    . rcases hlands with hended | haccepting
      . exact .inl hended
      . exact .inr (haccepting.of_sameSettings (Handle.sameSettings_begin hvalid _))

theorem Run.quiet (hrun : Run x w s edits) (hstep : SaveStep x s [] s') : Run x w s' edits := by
  have hnext := hrun.step hstep
  rw [List.append_nil] at hnext
  exact hnext

theorem Run.arrive_write {d : Dispatch} (hrun : Run x w₀ ⟨w, some ⟨d, none⟩⟩ edits) (single : Bool)
    : Run x w₀ ⟨(w.arrive (.write d single)).2, none⟩ edits := by
  rw [PendingWrite.arrive_write]
  exact (hrun.quiet (.apply rfl)).quiet (.complete (Option.some_ne_none _))

/-- To execute a batch of saves is to take steps of a session. -/
theorem Run.execute {b : Batch} (hrun : Run x w₀ ⟨w, none⟩ edits) (hproper : b.Proper w)
    (hsaves : b.SavesOnly) (halone : x.WritesAlone w b) (single : Bool)
    : Run x w₀ ⟨(w.execute b single).2, (w.execute b single).1.writes.head?⟩ edits
        ∧
      (w.execute b single).1.Sent := by
  have hsent := hrun.quiet (.save hproper hsaves halone)
  rcases w.execute_cases b single with ⟨hwrites, hworld, hdone⟩ | ⟨c, hc, hends, hworld⟩
  . rw [hwrites, hworld]
    exact ⟨hsent, hdone⟩
  . have heq := Handle.dispatch_of_mem_begin (c := c) (by rw [hc]; exact List.mem_singleton_self c)
    rw [hc, heq] at hsent
    rw [Task.writes_of_isFinished hends, hworld, heq, ← PendingWrite.arrive_write _ _ single]
    exact ⟨hsent.arrive_write single, .inl hends⟩

theorem Run.start_save {e : EntityRef} (hrun : Run x w₀ ⟨w, none⟩ edits)
    (halone : x.WritesAlone w (w.saveBatch e))
    : Run x w₀ ⟨(w.start (.save e)).2, (w.start (.save e)).1.writes.head?⟩ edits
        ∧
      (w.start (.save e)).1.Sent := by
  have hsave := w.save_eq_saveBatch e
  rw [w.start_save]
  exact hrun.execute ((Batch.proper_empty w _).save hsave) (Batch.savesOnly_save hsave) halone true

theorem start_of_addEntity {e : Entity} {a : AdapterRef} {object : Identity}
    (hstore : e.store.adapter = a) (hidentity : e.identity = object) (hadapter : a < w.adapters.size)
    (hreached : (w.adapter a).Reached) (hdestroyed : e.destroyed = false)
    (hchanged : ∀ p, e.isChanged p = false)
    (hstored : e.persisted = true →
      ((w.adapter a).record? object.typeName object.id).isSome = true)
    : Start ⟨w.entities.size, a, object⟩ (w.addEntity e).2 := by
  have hentity := World.entity_addEntity_self w e
  refine ⟨⟨?_, hadapter, ?_, ?_, hreached.faults_eq, hreached.wellKept⟩, ?_, ?_, ?_⟩
  . rw [World.size_addEntity]
    exact Nat.lt_succ_self _
  . exact (congrArg Entity.identity hentity).trans hidentity
  . exact (congrArg (fun entity => entity.store.adapter) hentity).trans hstore
  . exact (congrArg Entity.destroyed hentity).trans hdestroyed
  . intro p hp
    unfold Handle.isChanged Handle.entityIn at hp
    rw [hentity, hchanged p] at hp
    cases hp
  . intro hpersisted
    unfold Handle.entityIn at hpersisted
    rw [hentity] at hpersisted
    exact hstored hpersisted

/-- An entity that was created is not stored yet. -/
theorem start_of_create {store : Store} {typeName : String} {e : EntityRef}
    (hcreate : w.create store typeName = (.ok e, w')) (hadapter : store.adapter < w.adapters.size)
    (hreached : (w.adapter store.adapter).Reached)
    : Start ⟨e, store.adapter, (w'.entity e).identity⟩ w' := by
  unfold World.create at hcreate
  split at hcreate
  . cases hcreate
  . next objectType _ =>
    dsimp only at hcreate
    injection hcreate with he hw'
    injection he with he
    subst he hw'
    have hentity := World.entity_addEntity_self w.takeFreshId.2
      (.create store objectType w.takeFreshId.1)
    refine start_of_addEntity (w := w.takeFreshId.2) ?_ ?_ hadapter hreached ?_ ?_ ?_
    . rfl
    . exact (congrArg Entity.identity hentity).symm
    . rfl
    . intro p
      cases p <;> rfl
    . intro hpersisted
      cases hpersisted

/-- An entity that was read from its record counts as stored. -/
theorem start_of_hydrate {store : Store} {objectType : ObjectType} {r : Record} {e : EntityRef}
    (hhydrate : w.hydrate store objectType r = (.ok e, w'))
    (hadapter : store.adapter < w.adapters.size) (hreached : (w.adapter store.adapter).Reached)
    (hstored : (w.adapter store.adapter).record? r.typeName r.id = some r)
    : Start ⟨e, store.adapter, ⟨r.typeName, r.id⟩⟩ w' := by
  unfold World.hydrate Entity.hydrate Entity.decode at hhydrate
  by_cases htype : r.typeName = objectType.name
  . rw [if_neg (not_not_intro htype)] at hhydrate
    cases hattributes : Entity.decodeAttributes objectType r with
    | error err =>
      rw [hattributes] at hhydrate
      cases hhydrate
    | ok attributes =>
      rw [hattributes] at hhydrate
      dsimp only at hhydrate
      injection hhydrate with he hw'
      injection he with he
      subst he hw'
      refine start_of_addEntity ?_ ?_ hadapter hreached ?_ ?_ ?_
      . rfl
      . rw [htype]
        rfl
      . rfl
      . intro p
        cases p <;> rfl
      . intro _
        rw [hstored]
        rfl
  . rw [if_pos htype] at hhydrate
    cases hhydrate

theorem Kept.stored_of_clean (h : Kept x before edited ⟨w, none⟩) (hclean : (x.entityIn w).Clean)
    : ∃ r, x.stored w = some r
        ∧
      r.id = x.object.id
        ∧
      r.typeName = x.object.typeName
        ∧
      ∀ p, PartValue.agree (edited.wanted before p) (r.part? p) = true := by
  have hfits : Entity.UpToDate before edited (x.entityIn w) (x.stored w) := h.fits
  obtain ⟨hsome, hagree⟩ := hfits hclean.persisted
  obtain ⟨r, hr⟩ := Option.isSome_iff_exists.1 hsome
  obtain ⟨htype, hid⟩ := h.valid.wellKept _ _ _ hr
  refine ⟨r, hr, hid, htype, ?_⟩
  intro p
  have hunchanged := (Entity.clean_of_isDirty_eq_false hclean.destroyed hclean.isDirty).2 p
  have hp := hagree p hunchanged
  rw [hr] at hp
  exact hp

/-- Where saves are placed between edits makes no difference. Take two runs with the same edits, each of
them ended by a save that goes through. Both leave a clean entity with the same data, and the same
stored record. In particular, one of the runs may make no save but the last one. -/
theorem same_outcome_of_same_edits (hstart : Start x w₀) (hrun : Run x w₀ ⟨w, none⟩ edits)
    (hrun' : Run x w₀ ⟨w', none⟩ edits) (hfinal : FinalSave x w) (hfinal' : FinalSave x w')
    : (x.entityIn (w.perform (.save x.entity)).2).Clean
        ∧
      (x.entityIn (w'.perform (.save x.entity)).2).Clean
        ∧
      Entity.SameData (x.entityIn (w.perform (.save x.entity)).2)
          (x.entityIn (w'.perform (.save x.entity)).2)
        ∧
      ∃ r r', x.stored (w.perform (.save x.entity)).2 = some r
        ∧
      x.stored (w'.perform (.save x.entity)).2 = some r'
        ∧
      r.Same r' := by
  have hsound := hstart.sound.makeAll edits
  obtain ⟨hkept, hclean⟩ := (hrun.kept hstart).perform_save hsound hfinal
  obtain ⟨hkept', hclean'⟩ := (hrun'.kept hstart).perform_save hsound hfinal'
  obtain ⟨r, hr, hid, htype, hparts⟩ := hkept.stored_of_clean hclean
  obtain ⟨r', hr', hid', htype', hparts'⟩ := hkept'.stored_of_clean hclean'
  refine ⟨hclean, hclean', hkept.follows.data.symm.trans hkept'.follows.data, r, r', hr, hr',
    hid'.trans hid.symm, htype'.trans htype.symm, ?_⟩
  intro p
  exact PartValue.agree_of_agree (hparts p) (hparts' p)

def stoolStore : Store :=
  ⟨0,
    Keyed.empty.insert "stool"
      ((ObjectType.ofName "stool").addAttribute
        { name := "legs", type := .integer, default := .int 0 }),
    {}⟩

/-- There are no stools yet, and calls take some time. -/
def noStools : World :=
  { World.empty with adapters := #[Adapter.empty.withLatency 10] }

/-- A stool was created. -/
def stoolWorld : World := (noStools.create stoolStore "stool").2

def stoolHandle : Handle := ⟨0, 0, (stoolWorld.entity 0).identity⟩

theorem start_stoolWorld : Start stoolHandle stoolWorld := by
  have hcreate : noStools.create stoolStore "stool" = (.ok 0, stoolWorld) := rfl
  exact start_of_create hcreate (by decide) (Adapter.Reached.empty.withLatency 10)

theorem Run.save_stool (hrun : Run stoolHandle stoolWorld ⟨w, none⟩ edits)
    (hdestroyed : (w.entity 0).destroyed = false) (hrelated : (w.entity 0).knownRelated = [])
    : Run stoolHandle stoolWorld
        ⟨(w.execute (.alone w 0) true).2, (w.execute (.alone w 0) true).1.writes.head?⟩ edits := by
  have hvalid : stoolHandle.Valid w := (hrun.kept start_stoolWorld).valid
  have hsaved := (hrun.start_save
    (writesAlone_of_knownRelated_eq_nil hvalid hdestroyed hrelated)).1
  rw [World.start_save_of_knownRelated_eq_nil hvalid.entity_lt hdestroyed hrelated] at hsaved
  exact hsaved

-- The stool is put, edited while the put is under way, and refused once. In the other run it is saved
-- only in the end.
theorem same_outcome_of_stool
    : ∃ w w' edits,
        Start stoolHandle stoolWorld
          ∧
        Run stoolHandle stoolWorld ⟨w, none⟩ edits
          ∧
        Run stoolHandle stoolWorld ⟨w', none⟩ edits
          ∧
        FinalSave stoolHandle w
          ∧
        FinalSave stoolHandle w'
          ∧
        (stoolHandle.entityIn w).persisted = true
          ∧
        (stoolHandle.entityIn w).isDirty = true
          ∧
        (stoolHandle.entityIn w').persisted = false
          ∧
        ∃ r r', stoolHandle.stored (w.perform (.save 0)).2 = some r
          ∧
        stoolHandle.stored (w'.perform (.save 0)).2 = some r'
          ∧
        r.Same r' := by
  have hset := Run.start.step (SaveStep.edit (x := stoolHandle) (w := stoolWorld)
    (.set "legs" (.int 3)))
  have hsent := hset.save_stool rfl rfl
  have hedited := hsent.step (.edit (.set "legs" (.int 4)))
  have hsaved := hedited.arrive_write true
  rw [PendingWrite.arrive_write_of_online rfl] at hsaved
  have hrefusing := hsaved.quiet (.aside (aside_modifyAdapter (hsaved.kept start_stoolWorld).valid
    (a := 0) (f := fun a => a.reject stoolHandle.object) (fun _ _ _ => rfl) fun _ => rfl))
  have hrefused := (hrefusing.save_stool rfl rfl).arrive_write true
  rw [PendingWrite.arrive_write_of_online rfl] at hrefused
  have hrun := hrefused.quiet (.aside (aside_modifyAdapter (hrefused.kept start_stoolWorld).valid
    (a := 0) (f := fun a => a.accept stoolHandle.object) (fun _ _ _ => rfl) fun _ => rfl))
  have hrun' := hset.step (.edit (.set "legs" (.int 4)))
  have hfinal : FinalSave stoolHandle _ :=
    ⟨writesAlone_of_knownRelated_eq_nil (hrun.kept start_stoolWorld).valid rfl rfl,
      .inr ⟨rfl, by decide⟩⟩
  have hfinal' : FinalSave stoolHandle _ :=
    ⟨writesAlone_of_knownRelated_eq_nil (hrun'.kept start_stoolWorld).valid rfl rfl,
      .inr ⟨rfl, by decide⟩⟩
  have hsame := same_outcome_of_same_edits start_stoolWorld hrun hrun' hfinal hfinal'
  exact ⟨_, _, _, start_stoolWorld, hrun, hrun', hfinal, hfinal', rfl, rfl, rfl, hsame.2.2.2⟩

end SaveSession

end ObjectStore
