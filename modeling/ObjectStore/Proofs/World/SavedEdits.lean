import ObjectStore.Proofs.Entity.Edits
import ObjectStore.Proofs.World.EditSession
import ObjectStore.Proofs.World.Execution

/-!
This module compares an entity and its stored record with what the edits alone make of the entity. It
proves how edits and each stage of a save, sent, applied and noted, keep the three together.
-/

namespace ObjectStore

/-- Two records are the same, up to the sign of zeros. -/
structure Record.Same (r r' : Record) : Prop where
  id : r'.id = r.id
  typeName : r'.typeName = r.typeName
  parts : ∀ p, PartValue.agree (r.part? p) (r'.part? p) = true

namespace Entity

/-- The entity counts as stored, and nothing in it counts as changed. -/
structure Clean (e : Entity) : Prop where
  persisted : e.persisted = true
  destroyed : e.destroyed = false
  isDirty : e.isDirty = false

theorem clean_noted_of_due {e : Entity} {op : WriteOp} (hdue : Batch.Due e false op)
    (hdestroyed : e.destroyed = false) : (Dispatch.noted e op).Clean := by
  cases hdue with
  | delete hdestroy _ => cases hdestroy
  | put _ _ => exact ⟨reflects_put.1, hdestroyed, reflects_put.2⟩
  | patch _ _ => exact ⟨reflects_patch.1, hdestroyed, reflects_patch.2⟩

/-- What is to be stored of a part in the end, given the record that was stored before the entity was
edited. -/
def wanted (edited : Entity) (before : Option Record) (p : Part) : Option PartValue :=
  if edited.persisted = true ∧ edited.isChanged p = false then
    before.bind (·.part? p)
  else
    edited.toRecord.part? p

/-- The second entity is the first one after some of its changes were stored. -/
structure Follows (edited e : Entity) : Prop where
  data : SameData edited e
  persisted : edited.persisted = true → e.persisted = true
  changed : ∀ p, e.isChanged p = true → edited.isChanged p = true

/-- What is stored is what is to be stored in the end, but for the parts that count as changed. -/
def UpToDate (before : Option Record) (edited e : Entity) (stored : Option Record) : Prop :=
  e.persisted = true → stored.isSome = true
    ∧
  ∀ p, e.isChanged p = false →
    PartValue.agree (edited.wanted before p) (stored.bind (·.part? p)) = true

/-- An operation that the entity gave rise to. Parts that were edited since then count as changed. -/
structure Sends (edited e : Entity) (op : WriteOp) : Prop where
  isDelete : op.isDelete = false
  fits : Adapter.isPut op = true ∨ e.persisted = true
  changed : ∀ p v, op.written? p = some v → edited.persisted = true → edited.isChanged p = true
  current : ∀ p v, op.written? p = some v → e.isChanged p = false →
    PartValue.agree (e.toRecord.part? p) v = true

/-- What is stored after the adapter let an operation through, and before the entity knows of it. -/
structure Stores (before : Option Record) (edited e : Entity) (stored : Option Record) (op : WriteOp)
    : Prop where
  isSome : stored.isSome = true
  written : ∀ p v, op.written? p = some v → stored.bind (·.part? p) = v
  others : ∀ p, op.written? p = none → e.isChanged p = false →
    PartValue.agree (edited.wanted before p) (stored.bind (·.part? p)) = true

/-- How the entity and its record stand to the edits, depending on the save that is under way. -/
def Fits (before : Option Record) (edited e : Entity) (stored : Option Record) : Standing → Prop
  | .idle => UpToDate before edited e stored
  | .waiting op => UpToDate before edited e stored ∧ Sends edited e op
  | .accepted op => Sends edited e op ∧ Stores before edited e stored op

variable {edited edited' e e' : Entity} {before stored : Option Record} {standing : Standing}
  {op : WriteOp} {part : Part}

theorem wanted_of_edited (h : Edited edited edited' part) {p : Part} (hp : p ≠ part)
    : edited'.wanted before p = edited.wanted before p := by
  unfold wanted
  rw [h.persisted, (h.others p hp).1, (h.others p hp).2]

theorem Edited.ne_of_isChanged_eq_false (h : Edited e e' part) {p : Part}
    (hp : e'.isChanged p = false) : p ≠ part := by
  intro heq
  rw [heq, h.changed] at hp
  cases hp

theorem UpToDate.edit (h : UpToDate before edited e stored) (hedited : Edited edited edited' part)
    (hedit : Edited e e' part) : UpToDate before edited' e' stored := by
  intro hpersisted
  rw [hedit.persisted] at hpersisted
  obtain ⟨hsome, hagree⟩ := h hpersisted
  refine ⟨hsome, ?_⟩
  intro p hp
  have hne := hedit.ne_of_isChanged_eq_false hp
  rw [(hedit.others p hne).2] at hp
  rw [wanted_of_edited hedited hne]
  exact hagree p hp

theorem Sends.edit (h : Sends edited e op) (hedited : Edited edited edited' part)
    (hedit : Edited e e' part) : Sends edited' e' op := by
  refine ⟨h.isDelete, ?_, ?_, ?_⟩
  . rw [hedit.persisted]
    exact h.fits
  . intro p v hwritten hpersisted
    rw [hedited.persisted] at hpersisted
    exact hedited.still_changed (h.changed p v hwritten hpersisted)
  . intro p v hwritten hp
    have hne := hedit.ne_of_isChanged_eq_false hp
    rw [(hedit.others p hne).2] at hp
    rw [(hedit.others p hne).1]
    exact h.current p v hwritten hp

theorem Stores.edit (h : Stores before edited e stored op) (hedited : Edited edited edited' part)
    (hedit : Edited e e' part) : Stores before edited' e' stored op := by
  refine ⟨h.isSome, h.written, ?_⟩
  intro p hwritten hp
  have hne := hedit.ne_of_isChanged_eq_false hp
  rw [(hedit.others p hne).2] at hp
  rw [wanted_of_edited hedited hne]
  exact h.others p hwritten hp

theorem Fits.edit (h : Fits before edited e stored standing) (hedited : Edited edited edited' part)
    (hedit : Edited e e' part) : Fits before edited' e' stored standing := by
  cases standing with
  | idle => exact UpToDate.edit h hedited hedit
  | waiting op => exact ⟨h.1.edit hedited hedit, h.2.edit hedited hedit⟩
  | accepted op => exact ⟨h.1.edit hedited hedit, h.2.edit hedited hedit⟩

theorem Follows.edit (h : Follows edited e) (edit : Edit)
    : Follows (edit.make edited) (edit.make e) := by
  obtain ⟨hdata, ⟨hedited, hedit⟩ | ⟨hedited, hedit⟩⟩ := Edit.make_cases h.data edit
  . rw [hedited, hedit]
    exact h
  . refine ⟨hdata, ?_, ?_⟩
    . rw [hedited.persisted, hedit.persisted]
      exact h.persisted
    . intro p hp
      by_cases heq : p = edit.part
      . rw [heq]
        exact hedited.changed
      . rw [(hedit.others p heq).2] at hp
        exact hedited.still_changed (h.changed p hp)

theorem Fits.make (h : Fits before edited e stored standing) (hfollows : Follows edited e)
    (edit : Edit) : Fits before (edit.make edited) (edit.make e) stored standing := by
  rcases (Edit.make_cases hfollows.data edit).2 with ⟨hedited, hedit⟩ | ⟨hedited, hedit⟩
  . rw [hedited, hedit]
    exact h
  . exact h.edit hedited hedit

/-- The parts of an entity, and whether it counts as stored, are all that matters. -/
theorem Fits.of_same_parts (h : Fits before edited e stored standing)
    (hpersisted : e'.persisted = e.persisted) (hrecord : e'.toRecord = e.toRecord)
    (hchanged : ∀ p, e'.isChanged p = e.isChanged p) : Fits before edited e' stored standing := by
  have hupToDate : UpToDate before edited e stored → UpToDate before edited e' stored := by
    unfold UpToDate
    simp only [hpersisted, hchanged]
    exact fun h => h
  have hsends : ∀ {op}, Sends edited e op → Sends edited e' op := by
    intro op h
    obtain ⟨hdelete, hfits, hedited, hcurrent⟩ := h
    refine ⟨hdelete, by rwa [hpersisted], hedited, ?_⟩
    simpa only [hrecord, hchanged] using hcurrent
  cases standing with
  | idle => exact hupToDate h
  | waiting op => exact ⟨hupToDate h.1, hsends h.2⟩
  | accepted op =>
    refine ⟨hsends h.1, h.2.isSome, h.2.written, ?_⟩
    simpa only [hchanged] using h.2.others

theorem Follows.sends_of_due (h : Follows edited e) (hdue : Batch.Due e false op)
    : Sends edited e op := by
  cases hdue with
  | delete hdestroy _ => cases hdestroy
  | put _ hpersisted =>
    refine ⟨rfl, .inl rfl, ?_, ?_⟩
    . intro p v _ hstored
      rw [h.persisted hstored] at hpersisted
      cases hpersisted
    . intro p v hwritten _
      injection hwritten with hv
      rw [← hv]
      exact PartValue.agree_self _
  | patch _ hpersisted =>
    have hwritten_changed : ∀ p v, WriteOp.written? p (.patch e.toPatch) = some v →
        e.isChanged p = true := by
      intro p v hwritten
      unfold WriteOp.written? at hwritten
      dsimp only at hwritten
      rw [part?_toPatch] at hwritten
      by_contra hp
      rw [if_neg hp] at hwritten
      cases hwritten
    refine ⟨rfl, .inr hpersisted, ?_, ?_⟩
    . intro p v hwritten _
      exact h.changed p (hwritten_changed p v hwritten)
    . intro p v hwritten hp
      rw [hwritten_changed p v hwritten] at hp
      cases hp

theorem Sends.stores_overlay (h : Sends edited e op) (hupToDate : UpToDate before edited e stored)
    : Stores before edited e (Adapter.overlay stored op) op := by
  have hfits : Adapter.isPut op = true ∨ stored.isSome = true :=
    h.fits.imp_right fun hpersisted => (hupToDate hpersisted).1
  refine ⟨EditSession.isSome_overlay h.isDelete hfits, ?_, ?_⟩
  . intro p v hwritten
    rw [WriteOp.part?_overlay p hfits, hwritten, Option.getD_some]
  . intro p hwritten hp
    rw [WriteOp.part?_overlay p hfits, hwritten, Option.getD_none]
    have hpersisted : e.persisted = true := by
      rcases h.fits with hput | hpersisted
      . cases op with
        | put record => cases hwritten
        | patch record => cases hput
        | delete typeName id => cases hput
      . exact hpersisted
    exact (hupToDate hpersisted).2 p hp

theorem Follows.noted (h : Follows edited e) (hdelete : op.isDelete = false)
    : Follows edited (Dispatch.noted e op) := by
  refine ⟨h.data.trans ?_, ?_, ?_⟩
  . cases op with
    | delete typeName id => cases hdelete
    | put record | patch record => exact ⟨rfl, rfl, rfl, rfl, rfl, rfl⟩
  . intro _
    cases op with
    | delete typeName id => cases hdelete
    | put record | patch record => rfl
  . intro p hp
    rw [Dispatch.isChanged_noted hdelete, Bool.and_eq_true] at hp
    exact h.changed p hp.1

/-- When the entity takes the answer, parts stop to count as changed whose value was sent. -/
theorem Follows.upToDate_noted (h : Follows edited e) (hsends : Sends edited e op)
    (hstores : Stores before edited e stored op)
    (hvalue : ∀ p, edited.isChanged p = true → (edited.toRecord.part? p).isSome = true)
    : UpToDate before edited (Dispatch.noted e op) stored := by
  intro _
  refine ⟨hstores.isSome, ?_⟩
  intro p hp
  rw [Dispatch.isChanged_noted hsends.isDelete] at hp
  cases hwritten : op.written? p with
  | none =>
    apply hstores.others p hwritten
    -- A changed part has a value, and one that was not sent stays changed.
    by_contra hchanged
    rw [Bool.not_eq_false] at hchanged
    have hsome := hvalue p (h.changed p hchanged)
    rw [← h.data.toRecord] at hsome
    obtain ⟨v, hv⟩ := Option.isSome_iff_exists.1 hsome
    rw [hchanged, hwritten, hv] at hp
    cases hp
  | some v =>
    have hcurrent : PartValue.agree (e.toRecord.part? p) v = true := by
      cases hchanged : e.isChanged p with
      | false => exact hsends.current p v hwritten hchanged
      | true =>
        rw [hchanged, hwritten] at hp
        simpa using hp
    rw [hstores.written p v hwritten]
    unfold wanted
    rw [if_neg, ← h.data.toRecord]
    . exact hcurrent
    . rintro ⟨hpersisted, hunchanged⟩
      rw [hsends.changed p v hwritten hpersisted] at hunchanged
      cases hunchanged

end Entity

end ObjectStore
