import ObjectStore.Proofs.Entity.EditedValues
import ObjectStore.Proofs.World.SavePlacement

/-!
This module looks at single parts of the stored record while an entity is edited and saved. It proves
that a part which no edit has changed is stored exactly as it was before, and that one which was changed
is stored with the value that the entity has.
-/

namespace ObjectStore.SaveSession

variable {x : Handle} {w w' w₀ : World} {before : Option Record} {edited : Entity}
  {edits new : List Edit} {s s' : SaveSession} {pending : Option PendingWrite} {p : Part}

/-- The parts that were never changed are stored as they were. -/
def Untouched (x : Handle) (before : Option Record) (edited : Entity) (w : World) : Prop :=
  ∀ p, edited.persisted = true → edited.isChanged p = false →
    x.stored? w p = before.bind (·.part? p)

theorem Untouched.of_stored_eq (h : Untouched x before edited w) (hstored : x.stored w' = x.stored w)
    : Untouched x before edited w' := by
  unfold Untouched Handle.stored?
  rw [hstored]
  exact h

theorem Untouched.edit (h : Untouched x before edited w) (edit : Edit)
    : Untouched x before (edit.make edited) w := by
  rcases edit.edited_or_eq edited with hsame | hedited
  . rw [hsame]
    exact h
  . intro p hpersisted hp
    apply h p
    . rw [← hedited.persisted]
      exact hpersisted
    . rw [Bool.eq_false_iff] at hp ⊢
      exact fun hchanged => hp (hedited.still_changed hchanged)

theorem Untouched.apply {c : PendingWrite} (h : Untouched x before edited w)
    (hkept : Kept x before edited ⟨w, some c⟩) (hanswer : c.answer = none)
    : Untouched x before edited (c.apply w).2 := by
  have hvalid : x.Valid w := hkept.valid
  have howns := (hkept.sent c rfl).1
  have hfits := hkept.fits
  unfold standing at hfits
  dsimp only at hfits
  rcases Handle.find?_planned_of_answer_eq_none (x := x) hanswer with ⟨_, hidle⟩ | ⟨q, _, hwaiting⟩
  . exact h.of_stored_eq (Handle.apply_of_idle hvalid howns hanswer hidle).2
  . obtain ⟨hrefused, haccepted⟩ := Handle.apply_of_waiting hvalid howns hanswer hwaiting
    by_cases hrefuses : x.Refuses w q.op
    . exact h.of_stored_eq (hrefused hrefuses).2
    . rw [hwaiting] at hfits
      obtain ⟨hupToDate, hsends⟩ := hfits
      intro p hpersisted hp
      -- What is sent is only what was changed.
      have hnone : q.op.written? p = none := by
        cases hwritten : q.op.written? p with
        | none => rfl
        | some v =>
          rw [hsends.changed p v hwritten hpersisted] at hp
          cases hp
      have hstored : Adapter.isPut q.op = true ∨ (x.stored w).isSome = true :=
        hsends.fits.imp_right fun hpersisted => (hupToDate hpersisted).1
      unfold Handle.stored?
      rw [(haccepted hrefuses).2, WriteOp.part?_overlay p hstored, hnone]
      exact h p hpersisted hp

theorem Untouched.step (h : Untouched x before edited s.world) (hkept : Kept x before edited s)
    (hstep : SaveStep x s new s') : Untouched x before (Edit.makeAll edited new) s'.world := by
  have hvalid := hkept.valid
  cases hstep with
  | edit edit =>
    apply Untouched.edit
    apply h.of_stored_eq
    unfold Handle.stored World.adapter
    rw [(frame_perform _ x.entity edit).1]
  | save _ _ _ => exact h.of_stored_eq (Handle.stored_begin hvalid _)
  | apply hanswer => exact h.apply hkept hanswer
  | complete _ => exact h.of_stored_eq Handle.stored_complete
  | aside haside => exact h.of_stored_eq haside.stored

theorem Run.untouched (hstart : Start x w) (hrun : Run x w s edits)
    : Untouched x (x.stored w) (Edit.makeAll (x.entityIn w) edits) s.world := by
  induction hrun with
  | start => exact fun _ _ _ => rfl
  | step hrun hstep ih =>
    rw [Edit.makeAll_append]
    exact ih.step (hrun.kept hstart) hstep

/-- To save an entity and to wait for the end is to take steps of a session. -/
theorem Run.perform_save (hstart : Start x w₀) (hrun : Run x w₀ ⟨w, none⟩ edits)
    (halone : x.WritesAlone w (w.saveBatch x.entity))
    : Run x w₀ ⟨(w.perform (.save x.entity)).2, none⟩ edits := by
  have hsave := w.save_eq_saveBatch x.entity
  have hbegun := hrun.quiet (.save ((Batch.proper_empty w _).save hsave) (Batch.savesOnly_save hsave)
    halone)
  rcases w.perform_save x.entity with ⟨hnone, hperform⟩ | ⟨clock, hsome, hperform⟩
  . rw [hperform]
    rw [hnone] at hbegun
    exact hbegun
  . rw [hperform]
    rw [hsome] at hbegun
    exact (hbegun.quiet (.aside (aside_clock (hbegun.kept hstart).valid clock))).arrive_write true

theorem sameSettings_perform_save (hvalid : x.Valid w)
    : ((w.perform (.save x.entity)).2.adapter x.adapter).SameSettings (w.adapter x.adapter) := by
  have hbegun := Handle.sameSettings_begin hvalid (w.saveBatch x.entity)
  rcases w.perform_save x.entity with ⟨_, hperform⟩ | ⟨clock, _, hperform⟩
  . rw [hperform]
    exact hbegun
  . have hclock := (aside_clock (hvalid.begin (w.saveBatch x.entity)) clock).valid
    rw [hperform, PendingWrite.arrive_write]
    unfold World.adapter
    rw [Handle.frame_complete.1]
    exact (Handle.sameSettings_apply hclock).trans hbegun

end ObjectStore.SaveSession
