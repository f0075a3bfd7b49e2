import ObjectStore.Proofs.Entity.Edits
import ObjectStore.Proofs.Entity.WellTyped
import ObjectStore.Proofs.Schema.StoredValues

/-!
This module proves which value an attribute has after some edits: the one that was set last, or the one
that it had at first, if it does not count as changed.
-/

namespace ObjectStore

namespace Edit

variable {e e' : Entity} {edit : Edit} {edits : List Edit} {name : String} {v w : Value}

theorem objectType_make (e : Entity) (edit : Edit) : (edit.make e).objectType = e.objectType := by
  unfold make
  split
  . next e' h =>
    cases edit with
    | set name v => exact (Entity.sameRelations_set h).objectType
    | setRelatedId name id =>
      obtain ⟨_, rfl⟩ | ⟨_, rfl⟩ := Entity.setRelatedId_eq_ok h <;> rfl
  . rfl

theorem persisted_makeAll (e : Entity) (edits : List Edit)
    : (makeAll e edits).persisted = e.persisted := by
  induction edits generalizing e with
  | nil => rfl
  | cons edit edits ih =>
    refine (ih (edit.make e)).trans ?_
    rcases edit.edited_or_eq e with hsame | hedited
    . rw [hsame]
    . exact hedited.persisted

theorem objectType_makeAll (e : Entity) (edits : List Edit)
    : (makeAll e edits).objectType = e.objectType := by
  induction edits generalizing e with
  | nil => rfl
  | cons edit edits ih => exact (ih (edit.make e)).trans (objectType_make e edit)

/-- An edit leaves an attribute alone, or sets it, so that it counts as changed. -/
theorem attr_make (e : Entity) (edit : Edit) (name : String)
    : (edit.make e).attributes.get? name = e.attributes.get? name
        ∨
      edit.part = .attr name ∧ (edit.make e).isChanged (.attr name) = true := by
  unfold make
  split
  . next e' hmade =>
    cases edit with
    | set name' v =>
      obtain ⟨_, _, _, _, ⟨_, _, _, rfl⟩ | rfl⟩ := Entity.set_eq_ok hmade
      . exact .inl rfl
      . by_cases hname : name = name'
        . subst hname
          exact .inr ⟨rfl, (Entity.edited_attr e name _).changed⟩
        . left
          rw [Keyed.get?_insert, if_neg hname]
    | setRelatedId name' id =>
      left
      obtain ⟨_, rfl⟩ | ⟨_, rfl⟩ := Entity.setRelatedId_eq_ok hmade <;> rfl
  . exact .inl rfl

theorem still_changed_makeAll {p : Part} (h : e.isChanged p = true) (edits : List Edit)
    : (makeAll e edits).isChanged p = true := by
  induction edits generalizing e with
  | nil => exact h
  | cons edit edits ih =>
    apply ih
    rcases edit.edited_or_eq e with hsame | hedited
    . rw [hsame]
      exact h
    . exact hedited.still_changed h

/-- What does not count as changed was never set to another value. -/
theorem get?_makeAll_of_unchanged (h : (makeAll e edits).isChanged (.attr name) = false)
    : (makeAll e edits).attributes.get? name = e.attributes.get? name := by
  induction edits generalizing e with
  | nil => rfl
  | cons edit edits ih =>
    refine (ih h).trans ?_
    rcases attr_make e edit name with hsame | ⟨_, hchanged⟩
    . exact hsame
    . change (makeAll (edit.make e) edits).isChanged (.attr name) = false at h
      rw [still_changed_makeAll hchanged] at h
      cases h

end Edit

end ObjectStore
