import ObjectStore.Proofs.Adapter.Lookup
import ObjectStore.Proofs.World.Coherence
import ObjectStore.Proofs.World.Run

/-!
This module compares the two ways to an object whose id is known: to get it, and to query for it. Both
return an object or nothing, but the query may return an object whose id differs in case.
-/

namespace ObjectStore

/-- The object that a record is read as. -/
def Entity.ofRecord? (store : Store) (t : ObjectType) (r : Record) : Option Entity :=
  (hydrate store t r).toOption

theorem Entity.id_of_ofRecord? {store : Store} {t : ObjectType} {r : Record} {x : Entity}
    (h : ofRecord? store t r = some x) : x.id = r.id := by
  unfold ofRecord? hydrate at h
  split at h
  . cases h
    rfl
  . cases h

theorem Entity.map_id_bind_ofRecord? {store : Store} {t : ObjectType} {r : Option Record}
    (hread : ∀ r', r = some r' → (ofRecord? store t r').isSome = true)
    : (r.bind (ofRecord? store t)).map Entity.id = r.map Record.id := by
  cases r with
  | none => rfl
  | some r =>
    obtain ⟨x, hx⟩ := Option.isSome_iff_exists.1 (hread r rfl)
    rw [Option.bind_some, hx, Option.map_some, id_of_ofRecord? hx, Option.map_some]

namespace World

variable {w : World} {store : Store} {t : ObjectType} {typeName id : String} {q : Query}

theorem hydrate_of_ofRecord? {r : Record} {x : Entity} (h : Entity.ofRecord? store t r = some x)
    : w.hydrate store t r = (.ok w.entities.size, (w.addEntity x).2) := by
  unfold Entity.ofRecord? at h
  unfold hydrate
  cases hentity : Entity.hydrate store t r with
  | error err =>
    rw [hentity] at h
    cases h
  | ok y =>
    rw [hentity] at h
    cases h
    rfl

theorem object?_arrive_get {r : Option Record}
    (hget : (w.adapter store.adapter).get t.name id = .ok r)
    (hread : ∀ r', r = some r' → (Entity.ofRecord? store t r').isSome = true)
    : object? (w.arrive (.get store t id)) = some (r.bind (Entity.ofRecord? store t)) := by
  unfold arrive
  dsimp only
  rw [hget]
  cases r with
  | none => rfl
  | some r =>
    obtain ⟨x, hx⟩ := Option.isSome_iff_exists.1 (hread r rfl)
    unfold hydrate?
    dsimp only
    rw [hydrate_of_ofRecord? hx, Option.bind_some, hx]
    unfold object?
    dsimp only [Except.map]
    rw [Option.map_some, entity_addEntity_self]

theorem startPreload_of_children_eq_nil (hpreload : q.preload.children = []) (es : List EntityRef)
    (single : Bool) : w.startPreload q es single = (.found es single, w) := by
  unfold startPreload
  split
  . rfl
  . dsimp only
    rw [hpreload, startBranches]
    rfl

theorem hydrateAll_singleton {r : Record} {x : Entity} (h : Entity.ofRecord? store t r = some x)
    : w.hydrateAll store t [some r] = (.ok [some w.entities.size], (w.addEntity x).2) := by
  unfold hydrateAll hydrate?
  dsimp only
  rw [hydrate_of_ofRecord? h]
  rfl

/-- A query for one object that follows no relationships. -/
theorem object?_arrive_fetch {first : Option Record} (hpreload : q.preload.children = [])
    (hquery : (w.adapter q.store.adapter).query q = .ok first.toList)
    (hread : ∀ r, first = some r → (Entity.ofRecord? q.store q.objectType r).isSome = true)
    : object? (w.arrive (.fetch q true))
        =
      some (first.bind (Entity.ofRecord? q.store q.objectType)) := by
  unfold arrive
  dsimp only
  rw [hquery]
  cases first with
  | none => rfl
  | some r =>
    obtain ⟨x, hx⟩ := Option.isSome_iff_exists.1 (hread r rfl)
    rw [Option.toList_some]
    dsimp only
    rw [List.map_singleton, hydrateAll_singleton hx]
    dsimp only
    rw [startPreload_of_children_eq_nil hpreload, Option.bind_some, hx]
    unfold object? Task.found
    simp

/-- Getting an object returns what is stored under the id. -/
theorem object?_perform_get (htype : store.objectType typeName = .ok t)
    (honline : (w.adapter store.adapter).offline = false)
    (hfaults : (w.adapter store.adapter).faults = {})
    (hread : ∀ r, (w.adapter store.adapter).record? t.name id = some r →
      (Entity.ofRecord? store t r).isSome = true)
    : object? (w.perform (.get store typeName id))
        =
      some (((w.adapter store.adapter).record? t.name id).bind (Entity.ofRecord? store t)) := by
  have hget : (w.adapter store.adapter).get t.name id
      = .ok ((w.adapter store.adapter).record? t.name id) := by
    unfold Adapter.get Adapter.checkOnline
    rw [honline, Adapter.handOut_of_no_faults hfaults, Option.map_id]
    rfl
  unfold perform start callForType
  dsimp only
  rw [htype]
  apply object?_run_call
  intro clock
  obtain ⟨log, hlog⟩ := w.adapter_arrival (.get store t id) clock store.adapter
  apply object?_arrive_get _ hread
  rw [hlog]
  exact hget

/-- A query for an id returns the first object whose id is the same up to case. -/
theorem object?_perform_withId (id : String) (hreached : (w.adapter store.adapter).Reached)
    (honline : (w.adapter store.adapter).offline = false) (hcap : 1 ≤ store.config.maxClauses)
    (hread : ∀ id r, (w.adapter store.adapter).record? t.name id = some r →
      (Entity.ofRecord? store t r).isSome = true)
    : ∃ first, (w.adapter store.adapter).FirstAlike t.name id first
        ∧
      object? (w.perform (.first ((Query.ofType store t).withId id)))
        =
      some (first.bind (Entity.ofRecord? store t)) := by
  obtain ⟨first, hquery, hfirst⟩ := Adapter.query_withId hreached honline hcap t id
  refine ⟨first, hfirst, ?_⟩
  apply object?_run_call
  intro clock
  obtain ⟨log, hlog⟩ := w.adapter_arrival (.fetch ((Query.ofType store t).withId id).first true)
    clock store.adapter
  apply object?_arrive_fetch rfl
  . change ((w.arrival _ clock).adapter store.adapter).query _ = _
    rw [hlog]
    exact hquery
  . intro r hr
    rw [hr] at hfirst
    exact hread r.id r hfirst.1.stored

/-- To get an object and to query for its id return the same, unless another object whose id is the
same up to case comes before it or is there in its place. -/
theorem lookups_agree_iff (w : World) (store : Store) (t : ObjectType) (typeName id : String)
    (htype : store.objectType typeName = .ok t) (hreached : (w.adapter store.adapter).Reached)
    (honline : (w.adapter store.adapter).offline = false) (hcap : 1 ≤ store.config.maxClauses)
    (hread : ∀ id r, (w.adapter store.adapter).record? t.name id = some r →
      (Entity.ofRecord? store t r).isSome = true)
    : ∃ got queried, object? (w.perform (.get store typeName id)) = some got
        ∧ object? (w.perform (.first ((Query.ofType store t).withId id))) = some queried
        ∧ (∀ x, got = some x → x.id = id)
        ∧ (∀ x, queried = some x → Text.lowercase x.id = Text.lowercase id)
        ∧ (got.map Entity.id = queried.map Entity.id → got = queried)
        ∧ (got = queried
            ↔
          ∀ r, (w.adapter store.adapter).Alike t.name id r →
            (w.adapter store.adapter).record? t.name id ≠ none ∧ id ≤ r.id) := by
  have hget := object?_perform_get htype honline hreached.faults_eq (hread id)
  obtain ⟨first, hfirst, hquery⟩ :=
    object?_perform_withId id hreached honline hcap hread
  have hreadFirst : ∀ r, first = some r → (Entity.ofRecord? store t r).isSome = true := by
    rintro r rfl
    exact hread r.id r hfirst.1.stored
  have hgotId := Entity.map_id_bind_ofRecord? (hread id)
  have hqueriedId := Entity.map_id_bind_ofRecord? hreadFirst
  have hsame := Adapter.eq_of_firstAlike hreached.wellKept hfirst
  refine ⟨_, _, hget, hquery, ?_, ?_, ?_, ?_⟩
  . intro x hx
    obtain ⟨r, hr, hxr⟩ := Option.bind_eq_some_iff.1 hx
    rw [Entity.id_of_ofRecord? hxr]
    exact (hreached.wellKept t.name id r hr).2
  . intro x hx
    obtain ⟨r, rfl, hxr⟩ := Option.bind_eq_some_iff.1 hx
    rw [Entity.id_of_ofRecord? hxr]
    exact hfirst.1.alike
  . intro hids
    rw [hgotId, hqueriedId] at hids
    rw [hsame hids]
  . rw [← Adapter.record?_eq_iff_of_firstAlike hreached.wellKept hfirst]
    constructor
    . intro heq
      rw [heq, hqueriedId] at hgotId
      exact hsame hgotId.symm
    . intro heq
      rw [heq]

def chairStore : Store := ⟨0, Schema.addType .empty Adapter.chairType, {}⟩

def chairWorld : World := { empty with adapters := #[Adapter.chairs.withLatency 10] }

theorem lookups_agree_of_chairs
    : ∃ x, object? (chairWorld.perform (.get chairStore "chair" "b")) = some (some x)
        ∧ object? (chairWorld.perform
            (.first ((Query.ofType chairStore Adapter.chairType).withId "b"))) = some (some x)
        ∧ x.id = "b" := by
  have hreached : (chairWorld.adapter 0).Reached :=
    .withLatency 10 (((Adapter.Reached.empty.insert _).insert _).insert _)
  have hread := Adapter.forall_record?_of_all (chairWorld.adapter 0) "chair"
    (fun r => (Entity.ofRecord? chairStore Adapter.chairType r).isSome) (by decide +kernel)
  have hfirst := Adapter.forall_record?_of_all (chairWorld.adapter 0) "chair"
    (fun r => Text.lowercase r.id ≠ Text.lowercase "b" || decide ("b" ≤ r.id)) (by decide +kernel)
  obtain ⟨got, queried, hget, hquery, -, -, -, hagree⟩ :=
    lookups_agree_iff chairWorld chairStore Adapter.chairType "chair" "b" rfl hreached rfl
      (by decide) hread
  have hsame : got = queried := by
    apply hagree.2
    intro r hr
    have hle := hfirst r.id r hr.stored
    simp only [hr.alike, ne_eq, not_true_eq_false, decide_false, Bool.false_or,
      decide_eq_true_eq] at hle
    exact ⟨by decide +kernel, hle⟩
  have hid : (object? (chairWorld.perform (.get chairStore "chair" "b"))).map (·.map Entity.id)
      = some (some "b") := by
    decide +kernel
  rw [hget] at hid
  obtain ⟨x, rfl, hx⟩ := Option.map_eq_some_iff.1 (Option.some.inj hid)
  rw [← hsame] at hquery
  exact ⟨x, hget, hquery, hx⟩

/-- The chairs `a` and `A`. -/
def twoChairs : Adapter :=
  (Adapter.empty.insert (Adapter.chair "a" 2)).insert (Adapter.chair "A" 7)

def twoChairsWorld : World := { empty with adapters := #[twoChairs] }

theorem lookups_disagree_of_case
    : chairStore.objectType "chair" = .ok Adapter.chairType
        ∧ (twoChairsWorld.adapter 0).Reached
        ∧ (twoChairsWorld.adapter 0).offline = false
        ∧ 1 ≤ chairStore.config.maxClauses
        ∧ (∀ id r, (twoChairsWorld.adapter 0).record? "chair" id = some r →
            (Entity.ofRecord? chairStore Adapter.chairType r).isSome = true)
        ∧ (object? (twoChairsWorld.perform (.get chairStore "chair" "a"))).map (·.map Entity.id)
            = some (some "a")
        ∧ (object? (twoChairsWorld.perform
            (.first ((Query.ofType chairStore Adapter.chairType).withId "a")))).map
              (·.map Entity.id) = some (some "A") := by
  refine ⟨rfl, (Adapter.Reached.empty.insert _).insert _, rfl, by decide, ?_, ?_, ?_⟩
  . apply Adapter.forall_record?_of_all
    decide +kernel
  . decide +kernel
  . decide +kernel

end World

end ObjectStore
