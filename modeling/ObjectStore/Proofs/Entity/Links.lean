import ObjectStore.Entity.Copy
import ObjectStore.Proofs.Entity.Parts

/-!
This module proves what the changes of an entity do to its relationships: to the foreign ids, and to what
is known of the objects behind them.
-/

namespace ObjectStore.Entity

/-- The entity is for the same object of the same store. -/
structure SameIdentity (e e' : Entity) : Prop where
  id : e'.id = e.id
  objectType : e'.objectType = e.objectType
  store : e'.store = e.store

structure SameRelation (e e' : Entity) (name : String) : Prop where
  link : e'.links.get? name = e.links.get? name
  foreignId : e'.foreignIds.get? name = e.foreignIds.get? name

/-- Nothing but the relationships are looked at. -/
structure SameRelations (e e' : Entity) : Prop extends SameIdentity e e' where
  links : e'.links = e.links
  foreignIds : e'.foreignIds = e.foreignIds

variable {e e' : Entity} {name : String}

theorem SameIdentity.refl (e : Entity) : SameIdentity e e := ⟨rfl, rfl, rfl⟩

theorem SameIdentity.trans {e'' : Entity} (h : SameIdentity e e') (h' : SameIdentity e' e'')
    : SameIdentity e e'' :=
  ⟨h'.id.trans h.id, h'.objectType.trans h.objectType, h'.store.trans h.store⟩

theorem SameRelations.sameRelation (h : SameRelations e e') (name : String)
    : SameRelation e e' name := by
  constructor
  . rw [h.links]
  . rw [h.foreignIds]

theorem sameRelations_set {v : Value} (h : e.set name v = .ok e') : SameRelations e e' := by
  unfold set at h
  split at h
  . cases h
  . split at h
    . cases h
    . split at h <;> injection h with h <;> subst h <;> exact ⟨⟨rfl, rfl, rfl⟩, rfl, rfl⟩

theorem relationship_eq_ok {r : Relationship}
    : e.relationship name = .ok r ↔ e.objectType.belongsTo? name = some r := by
  unfold relationship
  split
  . next h => simp [h]
  . next h => simp [h]

theorem setRelated_eq_ok {target : Option (EntityRef × Identity)}
    (h : e.setRelated name target = .ok e')
    : ∃ r, e.objectType.belongsTo? name = some r
        ∧
      (∀ t object, target = some (t, object) → object.typeName = r.foreignType)
        ∧
      e' = { e with
        foreignIds := e.foreignIds.insert name (target.map fun (_, object) => object.id)
        links := e.links.insert name (.resolved (target.map fun (t, _) => t))
        dirtyRelations := e.dirtyRelations.add name } := by
  unfold setRelated at h
  obtain ⟨r, hr, h⟩ := bind_eq_ok.1 h
  refine ⟨r, relationship_eq_ok.1 hr, ?_⟩
  cases target with
  | none =>
    injection h with h
    exact ⟨nofun, h.symm⟩
  | some target =>
    obtain ⟨t, object⟩ := target
    dsimp only at h
    split at h
    . cases h
    . next htype =>
      injection h with h
      refine ⟨?_, h.symm⟩
      intro t' object' heq
      cases heq
      exact Decidable.not_not.1 htype

theorem setRelatedId_eq_ok {id : Option String} (h : e.setRelatedId name id = .ok e')
    : e.foreignIds.get? name = some id ∧ e' = e
        ∨
      e.foreignIds.get? name ≠ some id
        ∧
      e' = { e with
        foreignIds := e.foreignIds.insert name id
        links := e.links.erase name
        dirtyRelations := e.dirtyRelations.add name } := by
  unfold setRelatedId at h
  obtain ⟨_, _, h⟩ := bind_eq_ok.1 h
  split at h
  . next hid =>
    injection h with h
    exact .inl ⟨hid, h.symm⟩
  . next hid =>
    injection h with h
    exact .inr ⟨hid, h.symm⟩

/-- A relationship that was taken from the record has no link any more. All others stay. -/
theorem rehydrate_eq_ok {r : Record} (h : e.rehydrate r = .ok e')
    : SameIdentity e e'
        ∧
      ∀ name, if e.dirtyRelations.contains name = false ∧ (e.objectType.belongsTo? name).isSome then
          e'.links.get? name = none
        else
          SameRelation e e' name := by
  unfold rehydrate at h
  split at h
  . cases h
  . next attributes foreignIds hdecode =>
    injection h with h
    subst h
    refine ⟨⟨rfl, rfl, rfl⟩, ?_⟩
    intro name
    have hforeignIds : foreignIds = decodeForeignIds e.objectType r := by
      unfold decode at hdecode
      split at hdecode
      . cases hdecode
      . split at hdecode
        . injection hdecode with hdecode
          injection hdecode with _ hdecode
          exact hdecode.symm
        . cases hdecode
    have hknown : (foreignIds.get? name).isSome = (e.objectType.belongsTo? name).isSome := by
      rw [hforeignIds]
      simp [decodeForeignIds, ObjectType.belongsTo?]
    split
    . next hfresh =>
      obtain ⟨id, hid⟩ := Option.isSome_iff_exists.1 (hknown.trans hfresh.2)
      have htaken : (foreignIds.filter fun name _ => !e.dirtyRelations.contains name).contains name
          = true := by
        rw [Keyed.contains_eq_true_iff, Keyed.get?_filter, hid]
        exact ⟨id, by simp [Option.filter, hfresh.1]⟩
      dsimp only
      rw [Keyed.get?_filter, htaken]
      cases e.links.get? name <;> rfl
    . next hkept =>
      have hnone : (foreignIds.filter fun name _ => !e.dirtyRelations.contains name).get? name
          = none := by
        rw [← hknown] at hkept
        rw [Keyed.get?_filter]
        cases hget : foreignIds.get? name with
        | none => rfl
        | some id =>
          rw [hget] at hkept
          simpa [Option.filter] using hkept
      have hleft : (foreignIds.filter fun name _ => !e.dirtyRelations.contains name).contains name
          = false := by
        unfold Keyed.contains at hnone ⊢
        rw [hnone]
        rfl
      constructor
      . dsimp only
        rw [Keyed.get?_filter, hleft]
        cases e.links.get? name <;> rfl
      . dsimp only
        rw [Keyed.get?_merge, hnone, Option.none_or]

/-- Only the link that waits for the load is changed by its result. -/
theorem finishLoad_cases (e : Entity) (name : String) (load : LoadRef)
    (result : Except StoreError (Option EntityRef)) (name' : String)
    : SameRelation e (e.finishLoad name load result) name'
        ∨
      name' = name
        ∧
      e.links.get? name = some (.loading load)
        ∧
      (e.finishLoad name load result).foreignIds.get? name = e.foreignIds.get? name
        ∧
      (e.finishLoad name load result).links.get? name
        =
      match result with
      | .ok target => some (.resolved target)
      | .error _ => none := by
  unfold finishLoad
  split
  . next hloading =>
    by_cases hname : name' = name
    . refine .inr ⟨hname, hloading, ?_⟩
      cases result with
      | ok target => exact ⟨rfl, by simp [setLink]⟩
      | error err => exact ⟨rfl, by simp [dropLink]⟩
    . left
      cases result with
      | ok target => exact ⟨by simp [setLink, Keyed.get?_insert, hname], rfl⟩
      | error err => exact ⟨by simp [dropLink, Keyed.get?_erase, hname], rfl⟩
  . exact .inl ⟨rfl, rfl⟩

theorem sameIdentity_finishLoad (e : Entity) (name : String) (load : LoadRef)
    (result : Except StoreError (Option EntityRef))
    : SameIdentity e (e.finishLoad name load result) := by
  unfold finishLoad
  split
  . cases result <;> exact ⟨rfl, rfl, rfl⟩
  . exact .refl e

theorem link_finishLoad_ne (e : Entity) (name : String) (load : LoadRef)
    (result : Except StoreError (Option EntityRef))
    : (e.finishLoad name load result).links.get? name ≠ some (.loading load) := by
  unfold finishLoad
  split
  . cases result <;> simp [setLink, dropLink]
  . next hne => exact hne

theorem link_finishLoad {load : LoadRef} {result : Except StoreError (Option EntityRef)}
    (h : e.links.get? name = some (.loading load))
    : (e.finishLoad name load result).links.get? name = result.toOption.map Link.resolved := by
  rcases e.finishLoad_cases name load result name with hsame | ⟨_, _, _, hlink⟩
  . exact absurd (hsame.link.trans h) (e.link_finishLoad_ne name load result)
  . rw [hlink]
    cases result <;> rfl

theorem finishLoad_of_ne {load : LoadRef} {result : Except StoreError (Option EntityRef)}
    (h : e.links.get? name ≠ some (.loading load)) : e.finishLoad name load result = e := by
  unfold finishLoad
  rw [if_neg h]

theorem foreignId?_of_sameRelation (h : SameRelation e e' name)
    : e'.foreignId? name = e.foreignId? name := by
  unfold foreignId?
  rw [h.foreignId]

theorem mem_of_get?_ofList {α : Type} {entries : List (String × α)} {value : α}
    (h : (Keyed.ofList entries).get? name = some value) : (name, value) ∈ entries := by
  unfold Keyed.ofList at h
  suffices hgeneral : ∀ t : Keyed α,
      (entries.foldl (fun t (name, value) => t.insert name value) t).get? name = some value →
        t.get? name = some value ∨ (name, value) ∈ entries by
    rcases hgeneral .empty h with hempty | hmem
    . cases hempty
    . exact hmem
  clear h
  induction entries with
  | nil => exact fun t h => .inl h
  | cons entry entries ih =>
    obtain ⟨key, value'⟩ := entry
    intro t h
    rcases ih _ h with hinsert | hmem
    . rw [Keyed.get?_insert] at hinsert
      split at hinsert
      . next hname =>
        cases hinsert
        exact .inr (by rw [hname]; exact List.mem_cons_self)
      . exact .inl hinsert
    . exact .inr (List.mem_cons_of_mem _ hmem)

/-- A copy knows of a related object only what the source knows, and has the foreign id of the source
then. -/
theorem copyAs_eq_ok {target : ObjectType} {freshId : String} (h : e.copyAs target freshId = .ok e')
    : e'.objectType = target
        ∧
      e'.store = e.store
        ∧
      ∀ name link, e'.links.get? name = some link →
        e.links.get? name = some link
          ∧
        (∃ known, link = .resolved known)
          ∧
        e'.foreignId? name = e.foreignId? name
          ∧
        ∃ r own, target.belongsTo? name = some r
          ∧
        e.objectType.belongsTo? name = some own
          ∧
        own.foreignType = r.foreignType := by
  unfold copyAs at h
  split at h
  . cases h
  . cases h
    refine ⟨rfl, rfl, ?_⟩
    intro name link hlink
    obtain ⟨name', hname', hentry⟩ := List.mem_filterMap.1 (mem_of_get?_ofList hlink)
    split at hentry
    . next known hknown =>
      cases hentry
      obtain ⟨⟨key, r⟩, hr, rfl⟩ := List.mem_map.1 hname'
      have hr := (Keyed.mem_entries_iff _ _ _).1 hr
      have hr' := hr
      rw [Keyed.get?_filter, Option.filter_eq_some_iff] at hr
      obtain ⟨hr, hshares⟩ := hr
      unfold sharesRelation at hshares
      obtain ⟨own, hown, hsame⟩ := (Option.any_eq_true _ _).1 hshares
      refine ⟨hknown, ⟨known, rfl⟩, ?_, r, own, hr, hown, beq_iff_eq.1 hsame⟩
      have hshared : (target.belongsTo.filter (e.sharesRelation ·)).contains key = true :=
        (Keyed.contains_eq_true_iff _ _).2 ⟨r, hr'⟩
      unfold foreignId?
      dsimp only
      rw [Keyed.get?_map, hr, Option.map_some, if_pos hshared]
      rfl
    . cases hentry

end ObjectStore.Entity
