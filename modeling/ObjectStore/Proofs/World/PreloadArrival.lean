import ObjectStore.Proofs.World.PreloadPlan
import ObjectStore.Proofs.World.Preloads

/-!
This module contains what one answer does to a world when relationships are followed ahead of time: the
records that were found become new entities, one after the other, and the owners are linked to them.
-/

namespace ObjectStore

namespace Entity

/-- An object without what is known of the objects that its relationships point at. -/
def unlinked (x : Entity) : Entity :=
  { x with links := .empty }

/-- An object of a type none of whose relationships was changed. -/
structure Unchanged (store : Store) (t : ObjectType) (x : Entity) : Prop where
  store : x.store = store
  objectType : x.objectType = t
  clean : x.dirtyRelations = .empty

variable {store : Store} {t : ObjectType} {r : Record} {x : Entity}

theorem unchanged_of_ofRecord? (h : ofRecord? store t r = some x) : x.Unchanged store t := by
  unfold ofRecord? Entity.hydrate at h
  split at h
  . cases h
    exact ⟨rfl, rfl, rfl⟩
  . cases h

theorem links_of_ofRecord? (h : ofRecord? store t r = some x) : x.links = .empty := by
  unfold ofRecord? Entity.hydrate at h
  split at h
  . cases h
    rfl
  . cases h

theorem unlinked_of_links_eq_empty (h : x.links = .empty) : x.unlinked = x := by
  unfold unlinked
  rw [← h]

end Entity

namespace Adapter

variable {a : Adapter} {store : Store} {t : ObjectType} {id : String} {x : Entity}

theorem exists_record_of_object? (h : a.object? store t id = some x)
    : ∃ r, Entity.ofRecord? store t r = some x := by
  obtain ⟨r, _, hr⟩ := Option.bind_eq_some_iff.1 h
  exact ⟨r, hr⟩

theorem object?_of_record?_eq_none (h : a.record? t.name id = none)
    : a.object? store t id = none := by
  unfold object?
  rw [h]
  rfl

end Adapter

namespace World

variable {w w' : World} {store : Store} {t : ObjectType} {e : EntityRef} {a : Adapter}
  {call : BranchCall} {found : List (String × EntityRef)}

/-- What an entity holds, apart from what it is linked to. -/
def content (w : World) (e : EntityRef) : Entity :=
  (w.entity e).unlinked

def addAll (w : World) (xs : List Entity) : World :=
  { w with entities := w.entities ++ xs.toArray }

theorem addAll_nil (w : World) : w.addAll [] = w := by
  simp [addAll]

theorem addAll_addEntity (w : World) (x : Entity) (xs : List Entity)
    : (w.addEntity x).2.addAll xs = w.addAll (x :: xs) := by
  simp [addAll, addEntity]

theorem size_addAll (w : World) (xs : List Entity)
    : (w.addAll xs).entities.size = w.entities.size + xs.length := by
  simp [addAll]

theorem entity_addAll_of_lt (he : e < w.entities.size) (xs : List Entity)
    : (w.addAll xs).entity e = w.entity e := by
  simp [entity, addAll, he, Nat.lt_add_right _ he]

theorem entity_addAll_self (w : World) (x : Entity) (xs : List Entity)
    : (w.addAll (x :: xs)).entity w.entities.size = x := by
  simp [entity, addAll]

theorem map_entity_addAll (w : World) (xs : List Entity)
    : (List.range' w.entities.size xs.length).map (w.addAll xs).entity = xs := by
  apply List.ext_getElem
  . simp
  . intro i hi hi'
    simp [entity, addAll, hi']

theorem hydrate_eq_ok {r : Record} (h : w.hydrate store t r = (.ok e, w'))
    : ∃ x, Entity.ofRecord? store t r = some x
        ∧
      e = w.entities.size
        ∧
      w' = (w.addEntity x).2 := by
  cases hx : Entity.ofRecord? store t r with
  | some x =>
    rw [hydrate_of_ofRecord? hx] at h
    cases h
    exact ⟨x, rfl, rfl, rfl⟩
  | none =>
    unfold hydrate at h
    unfold Entity.ofRecord? at hx
    cases hentity : Entity.hydrate store t r with
    | error err =>
      rw [hentity] at h
      cases h
    | ok y =>
      rw [hentity] at hx
      cases hx

theorem hydrateAll_of_ofRecord? {rs : List Record} {xs : List Entity}
    (h : rs.map (Entity.ofRecord? store t) = xs.map some)
    : w.hydrateAll store t (rs.map some)
        =
      (.ok ((List.range' w.entities.size xs.length).map some), w.addAll xs) := by
  induction rs generalizing w xs with
  | nil =>
    cases List.map_eq_nil_iff.1 h.symm
    rw [addAll_nil]
    rfl
  | cons r rs ih =>
    cases xs with
    | nil => cases h
    | cons x xs =>
      obtain ⟨hx, hxs⟩ := List.cons.inj h
      rw [List.map_cons, World.hydrateAll, hydrate?, hydrate_of_ofRecord? hx]
      dsimp only
      rw [ih hxs]
      dsimp only
      rw [addAll_addEntity, size_addEntity]
      rfl

/-- If all records can be read, they become new entities in their order. -/
theorem hydrateAll_eq_ok {rs : List Record} {slots : List (Option EntityRef)}
    (h : w.hydrateAll store t (rs.map some) = (.ok slots, w'))
    : ∃ xs : List Entity, rs.map (Entity.ofRecord? store t) = xs.map some := by
  induction rs generalizing w w' slots with
  | nil => exact ⟨[], rfl⟩
  | cons r rs ih =>
    rw [List.map_cons, World.hydrateAll, hydrate?] at h
    cases hfirst : w.hydrate store t r with | mk result w₁ =>
    rw [hfirst] at h
    cases result with
    | error err => cases h
    | ok e =>
      dsimp only at h
      cases hrest : w₁.hydrateAll store t (rs.map some) with | mk results w₂ =>
      rw [hrest] at h
      cases results with
      | error err => cases h
      | ok es =>
        obtain ⟨x, hx, _⟩ := hydrate_eq_ok hfirst
        obtain ⟨xs, hxs⟩ := ih hrest
        exact ⟨x :: xs, by rw [List.map_cons, List.map_cons, hx, hxs]⟩

/-- The entities for the ids of a call: new ones, in the order of the ids, for what is stored. -/
structure Hydrated (a : Adapter) (store : Store) (t : ObjectType) (ids : List String) (w : World)
    (found : List (String × EntityRef)) (w' : World) : Prop where
  world : w' = w.addAll (ids.filterMap (a.object? store t))
  refs : ids.filterMap (fun id => found.lookup id)
    = List.range' w.entities.size (ids.filterMap (a.object? store t)).length
  object : ∀ id ∈ ids, (found.lookup id).map w'.entity = a.object? store t id
  missing : ∀ id ∈ ids, found.lookup id = none → a.record? t.name id = none
  other : ∀ id, id ∉ ids → found.lookup id = none

theorem hydrateFound_eq_ok {ids : List String} (hids : ids.Nodup)
    (h : w.hydrateFound call
        (ids.map fun id => (id, (a.record? call.foreignType.name id).map a.handOut))
      = (.ok found, w'))
    : Hydrated a call.store call.foreignType ids w found w' := by
  induction ids generalizing w found with
  | nil =>
    cases h
    exact ⟨(addAll_nil _).symm, rfl, nofun, nofun, fun _ _ => rfl⟩
  | cons id rest ih =>
    obtain ⟨hid, hrest⟩ := List.nodup_cons.1 hids
    have hne : ∀ id' ∈ rest, id' ≠ id := by
      rintro id' hmem rfl
      exact hid hmem
    rw [List.map_cons] at h
    cases hrecord : a.record? call.foreignType.name id with
    | none =>
      have hobject : a.object? call.store call.foreignType id = none :=
        Adapter.object?_of_record?_eq_none hrecord
      rw [hrecord, Option.map_none, World.hydrateFound] at h
      obtain ⟨hworld, hrefs, hobjects, hmissing, hother⟩ := ih hrest h
      have hlookup := hother id hid
      constructor
      . rw [List.filterMap_cons_none hobject]
        exact hworld
      . rw [List.filterMap_cons_none hobject, List.filterMap_cons, hlookup]
        exact hrefs
      . intro id' hmem
        rcases List.mem_cons.1 hmem with rfl | hmem
        . rw [hlookup, hobject]
          rfl
        . exact hobjects id' hmem
      . intro id' hmem hnone
        rcases List.mem_cons.1 hmem with rfl | hmem
        . exact hrecord
        . exact hmissing id' hmem hnone
      . intro id' hmem
        exact hother id' (List.not_mem_of_not_mem_cons hmem)
    | some r =>
      rw [hrecord, Option.map_some, World.hydrateFound] at h
      cases hfirst : w.hydrate call.store call.foreignType (a.handOut r) with | mk result w₁ =>
      rw [hfirst] at h
      cases result with
      | error err => cases h
      | ok e =>
        dsimp only at h
        cases hothers : w₁.hydrateFound call
          (rest.map fun id => (id, (a.record? call.foreignType.name id).map a.handOut)) with
          | mk results w₂ =>
        rw [hothers] at h
        cases results with
        | error err => cases h
        | ok found' =>
          cases h
          obtain ⟨x, hx, rfl, rfl⟩ := hydrate_eq_ok hfirst
          obtain ⟨hworld, hrefs, hobjects, hmissing, hother⟩ := ih hrest hothers
          have hobject : a.object? call.store call.foreignType id = some x := by
            unfold Adapter.object?
            rw [hrecord]
            exact hx
          have hlookup : ∀ id' ∈ rest, ((id, w.entities.size) :: found').lookup id'
              = found'.lookup id' := by
            intro id' hmem
            rw [Keyed.lookup_cons_eq_ite, if_neg (hne id' hmem)]
          constructor
          . rw [hworld, addAll_addEntity, List.filterMap_cons_some hobject]
          . rw [List.filterMap_cons_some hobject, List.filterMap_cons, List.filterMap_congr hlookup,
              hrefs, size_addEntity, List.lookup_cons_self]
            rfl
          . intro id' hmem
            rcases List.mem_cons.1 hmem with rfl | hmem
            . rw [List.lookup_cons_self, hobject, hworld, addAll_addEntity, Option.map_some,
                entity_addAll_self]
            . rw [hlookup id' hmem]
              exact hobjects id' hmem
          . intro id' hmem hnone
            rcases List.mem_cons.1 hmem with rfl | hmem
            . rw [List.lookup_cons_self] at hnone
              cases hnone
            . rw [hlookup id' hmem] at hnone
              exact hmissing id' hmem hnone
          . intro id' hmem
            rw [Keyed.lookup_cons_eq_ite, if_neg (List.ne_of_not_mem_cons hmem)]
            exact hother id' (List.not_mem_of_not_mem_cons hmem)

/-- The owners of a call that was answered are linked to what was found. -/
structure Cached (relation : String) (owners : List (EntityRef × Option String))
    (target : String → Option EntityRef) (w w' : World) : Prop where
  adapters : w'.adapters = w.adapters
  size : w'.entities.size = w.entities.size
  content : ∀ e, w'.content e = w.content e
  linked : ∀ e id, (e, id) ∈ owners →
    (w'.entity e).links.get? relation = some (.resolved (id.bind target))
  other : ∀ e name, (∀ id, (e, id) ∈ owners → name ≠ relation) →
    (w'.entity e).links.get? name = (w.entity e).links.get? name

theorem cached_one {relation : String} (he : e < w.entities.size)
    (hclean : (w.content e).dirtyRelations = .empty) (id : Option String)
    (target : String → Option EntityRef)
    : Cached relation [(e, id)] target w
        (w.modifyEntity e fun x => x.cachePreloaded relation (id.bind target)) := by
  have hcached : (w.entity e).cachePreloaded relation (id.bind target)
      = (w.entity e).setLink relation (.resolved (id.bind target)) := by
    unfold Entity.cachePreloaded
    rw [show (w.entity e).dirtyRelations = .empty from hclean]
    rfl
  constructor
  . rfl
  . exact w.size_modifyEntity e _
  . intro e'
    unfold World.content
    rw [w.entity_modifyEntity e e' _ he]
    split
    . next heq =>
      rw [heq, hcached]
      rfl
    . rfl
  . intro e' id' hmem
    cases List.mem_singleton.1 hmem
    rw [w.entity_modifyEntity e e _ he, if_pos rfl, hcached]
    exact Keyed.get?_insert_self ..
  . intro e' name hname
    rw [w.entity_modifyEntity e e' _ he]
    split
    . next heq =>
      rw [heq, hcached]
      unfold Entity.setLink
      rw [Keyed.get?_insert, if_neg (hname id (heq ▸ List.mem_singleton_self _))]
    . rfl

theorem Cached.cons {relation : String} {owner : EntityRef × Option String}
    {owners : List (EntityRef × Option String)} {target : String → Option EntityRef} {w₁ : World}
    (h : Cached relation [owner] target w w₁) (h' : Cached relation owners target w₁ w')
    (hids : ∀ id, (owner.1, id) ∈ owners → id = owner.2)
    : Cached relation (owner :: owners) target w w' := by
  constructor
  . rw [h'.adapters, h.adapters]
  . rw [h'.size, h.size]
  . intro e
    rw [h'.content, h.content]
  . intro e id hmem
    rcases List.mem_cons.1 hmem with rfl | hmem
    . by_cases hagain : (e, id) ∈ owners
      . exact h'.linked e id hagain
      . rw [h'.other e relation, h.linked e id (List.mem_singleton_self _)]
        intro id' hmem'
        cases hids id' hmem'
        exact absurd hmem' hagain
    . exact h'.linked e id hmem
  . intro e name hname
    rw [h'.other e name fun id hmem => hname id (List.mem_cons_of_mem _ hmem)]
    apply h.other
    intro id hmem
    cases List.mem_singleton.1 hmem
    exact hname id List.mem_cons_self

theorem cached_cacheFound (call : BranchCall)
    (howners : ∀ owner id, (owner, id) ∈ call.owners → owner < w.entities.size
      ∧ (w.content owner).dirtyRelations = .empty
      ∧ id = (w.content owner).foreignId? call.relation)
    (found : List (String × EntityRef))
    : Cached call.relation call.owners (fun id => found.lookup id) w (w.cacheFound call found) := by
  unfold cacheFound
  generalize call.owners = owners at howners
  induction owners generalizing w with
  | nil => exact ⟨rfl, rfl, fun _ => rfl, nofun, fun _ _ _ => rfl⟩
  | cons head rest ih =>
    obtain ⟨owner, id⟩ := head
    obtain ⟨hlt, hclean, hid⟩ := howners owner id List.mem_cons_self
    have hone : Cached call.relation [(owner, id)] (fun id => found.lookup id) w _ :=
      cached_one hlt hclean id _
    apply hone.cons
    . apply ih
      intro owner' id' hmem
      rw [hone.size, hone.content]
      exact howners owner' id' (List.mem_cons_of_mem _ hmem)
    . intro id' hmem
      rw [hid]
      exact (howners owner id' (List.mem_cons_of_mem _ hmem)).2.2

end World

end ObjectStore
