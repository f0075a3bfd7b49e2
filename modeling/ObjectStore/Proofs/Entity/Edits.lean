import ObjectStore.Proofs.Entity.Parts

/-!
This module contains the edits of an entity. It proves that what an edit does depends only on the
attributes and the foreign ids that the entity has, not on what counts as changed or as stored.
-/

namespace ObjectStore

inductive Edit where
  | set (name : String) (v : Value)
  | setRelatedId (name : String) (id : Option String)

namespace Edit

def part : Edit → Part
  | set name _ => .attr name
  | setRelatedId name _ => .relation name

def change (e : Entity) : Edit → Except StoreError Entity
  | set name v => e.set name v
  | setRelatedId name id => e.setRelatedId name id

/-- What an edit makes of an entity. One that fails changes nothing. -/
def make (e : Entity) (edit : Edit) : Entity :=
  match edit.change e with
  | .ok e' => e'
  | .error _ => e

def makeAll (e : Entity) (edits : List Edit) : Entity :=
  edits.foldl make e

end Edit

namespace Entity

/-- Two entities are the same but for what is known of related objects, and for what counts as
changed and as stored. -/
structure SameData (e e' : Entity) : Prop where
  id : e'.id = e.id
  objectType : e'.objectType = e.objectType
  store : e'.store = e.store
  attributes : e'.attributes = e.attributes
  foreignIds : e'.foreignIds = e.foreignIds
  destroyed : e'.destroyed = e.destroyed

theorem SameData.refl (e : Entity) : SameData e e := ⟨rfl, rfl, rfl, rfl, rfl, rfl⟩

variable {e e' : Entity}

theorem SameData.trans {e'' : Entity} (h : SameData e e') (h' : SameData e' e'') : SameData e e'' :=
  ⟨h'.id.trans h.id, h'.objectType.trans h.objectType, h'.store.trans h.store,
    h'.attributes.trans h.attributes, h'.foreignIds.trans h.foreignIds,
    h'.destroyed.trans h.destroyed⟩

theorem SameData.symm (h : SameData e e') : SameData e' e :=
  ⟨h.id.symm, h.objectType.symm, h.store.symm, h.attributes.symm, h.foreignIds.symm,
    h.destroyed.symm⟩

theorem SameData.exists_eq (h : SameData e e')
    : ∃ dirtyAttributes links dirtyRelations hasMany persisted,
        e' = { e with dirtyAttributes, links, dirtyRelations, hasMany, persisted } := by
  obtain ⟨hid, htype, hstore, hattributes, hforeignIds, hdestroyed⟩ := h
  refine ⟨e'.dirtyAttributes, e'.links, e'.dirtyRelations, e'.hasMany, e'.persisted, ?_⟩
  rw [← hid, ← htype, ← hstore, ← hattributes, ← hforeignIds, ← hdestroyed]

theorem SameData.toRecord (h : SameData e e') : e'.toRecord = e.toRecord := by
  unfold Entity.toRecord typeName
  rw [h.id, h.objectType, h.attributes, h.foreignIds]

end Entity

namespace Edit

open Entity

variable {e e' : Entity}

theorem set_cases (h : SameData e e') (name : String) (v : Value)
    : SameData (make e (.set name v)) (make e' (.set name v))
        ∧
      ((make e (.set name v) = e ∧ make e' (.set name v) = e')
        ∨
      (Edited e (make e (.set name v)) (.attr name)
        ∧
      Edited e' (make e' (.set name v)) (.attr name))) := by
  obtain ⟨dirtyAttributes, links, dirtyRelations, hasMany, persisted, rfl⟩ := h.exists_eq
  unfold make change Entity.set
  dsimp only
  cases e.objectType.attribute? name with
  | none => exact ⟨h, .inl ⟨rfl, rfl⟩⟩
  | some attr =>
    dsimp only
    cases attr.type.cast v with
    | error err => exact ⟨h, .inl ⟨rfl, rfl⟩⟩
    | ok v =>
      dsimp only
      by_cases hsame : (e.attributes.get? name).any (·.same v) = true
      . rw [if_pos hsame, if_pos hsame]
        exact ⟨h, .inl ⟨rfl, rfl⟩⟩
      . rw [if_neg hsame, if_neg hsame]
        exact ⟨⟨rfl, rfl, rfl, rfl, rfl, rfl⟩, .inr ⟨edited_attr e name v, edited_attr _ name v⟩⟩

theorem setRelatedId_cases (h : SameData e e') (name : String) (id : Option String)
    : SameData (make e (.setRelatedId name id)) (make e' (.setRelatedId name id))
        ∧
      ((make e (.setRelatedId name id) = e ∧ make e' (.setRelatedId name id) = e')
        ∨
      (Edited e (make e (.setRelatedId name id)) (.relation name)
        ∧
      Edited e' (make e' (.setRelatedId name id)) (.relation name))) := by
  obtain ⟨dirtyAttributes, links, dirtyRelations, hasMany, persisted, rfl⟩ := h.exists_eq
  unfold make change Entity.setRelatedId Entity.relationship
  dsimp only
  cases e.objectType.belongsTo? name with
  | none => exact ⟨h, .inl ⟨rfl, rfl⟩⟩
  | some r =>
    by_cases hsame : e.foreignIds.get? name = some id
    . simp only [bind, Except.bind, pure, Except.pure, if_pos hsame]
      exact ⟨h, .inl ⟨trivial, trivial⟩⟩
    . simp only [bind, Except.bind, pure, Except.pure, if_neg hsame]
      exact ⟨⟨rfl, rfl, rfl, rfl, rfl, rfl⟩, .inr ⟨edited_relation e name id,
        edited_relation _ name id⟩⟩

/-- An edit of two entities with the same data changes the same part of both, or nothing. -/
theorem make_cases (h : SameData e e') (edit : Edit)
    : SameData (make e edit) (make e' edit)
        ∧
      ((make e edit = e ∧ make e' edit = e')
        ∨
      (Edited e (make e edit) edit.part ∧ Edited e' (make e' edit) edit.part)) := by
  cases edit with
  | set name v => exact set_cases h name v
  | setRelatedId name id => exact setRelatedId_cases h name id

theorem edited_or_eq (e : Entity) (edit : Edit)
    : make e edit = e ∨ Edited e (make e edit) edit.part := by
  rcases (make_cases (.refl e) edit).2 with ⟨hsame, _⟩ | ⟨hedited, _⟩
  . exact .inl hsame
  . exact .inr hedited

theorem makeAll_append (e : Entity) (edits edits' : List Edit)
    : makeAll e (edits ++ edits') = makeAll (makeAll e edits) edits' := by
  unfold makeAll
  apply List.foldl_append

end Edit

namespace Entity

/-- The entity is not destroyed, and the parts that count as changed have values. -/
structure Sound (e : Entity) : Prop where
  destroyed : e.destroyed = false
  hasValue : ∀ p, e.isChanged p = true → (e.toRecord.part? p).isSome = true

variable {e : Entity}

theorem Sound.make (h : e.Sound) (edit : Edit) : (edit.make e).Sound := by
  rcases edit.edited_or_eq e with hsame | hedited
  . rw [hsame]
    exact h
  . refine ⟨hedited.destroyed.trans h.destroyed, ?_⟩
    intro p hp
    by_cases heq : p = edit.part
    . rw [heq]
      exact hedited.hasValue
    . rw [(hedited.others p heq).2] at hp
      rw [(hedited.others p heq).1]
      exact h.hasValue p hp

theorem Sound.makeAll (h : e.Sound) (edits : List Edit) : (Edit.makeAll e edits).Sound := by
  induction edits generalizing e with
  | nil => exact h
  | cons edit edits ih => exact ih (h.make edit)

end Entity

end ObjectStore
