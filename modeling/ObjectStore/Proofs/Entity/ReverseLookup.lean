import ObjectStore.Proofs.Adapter.ValueQuery
import ObjectStore.Proofs.Entity.WellTyped

/-!
This module proves that a relationship is the same from both of its sides. The objects that point back at
an entity are found by their exact foreign ids, and by a filter that does not regard case, so the two
queries agree where no two ids differ in case only.
-/

namespace ObjectStore

namespace Entity

/-- The entities that the library makes, and what becomes of them. -/
inductive Made : Entity → Prop where
  | create (store : Store) (t : ObjectType) (id : String) : Made (create store t id)
  | hydrate {store : Store} {t : ObjectType} {r : Record} {e : Entity}
    (h : hydrate store t r = .ok e) : Made e
  | copyAs {source e : Entity} {target : ObjectType} {freshId : String}
    (h : source.copyAs target freshId = .ok e) : Made e
  | set {e e' : Entity} {name : String} {v : Value} (h : Made e) (hset : e.set name v = .ok e')
    : Made e'
  | setRelated {e e' : Entity} {name : String} {target : Option (EntityRef × Identity)} (h : Made e)
    (hset : e.setRelated name target = .ok e') : Made e'
  | setRelatedId {e e' : Entity} {name : String} {id : Option String} (h : Made e)
    (hset : e.setRelatedId name id = .ok e') : Made e'
  | rehydrate {e e' : Entity} {r : Record} (h : Made e) (hr : e.rehydrate r = .ok e') : Made e'
  | setLink {e : Entity} (name : String) (link : Link) (h : Made e) : Made (e.setLink name link)
  | finishLoad {e : Entity} (name : String) (load : LoadRef)
    (result : Except StoreError (Option EntityRef)) (h : Made e) : Made (e.finishLoad name load result)
  | cachePreloaded {e : Entity} (name : String) (target : Option EntityRef) (h : Made e)
    : Made (e.cachePreloaded name target)
  | keepHasMany {e : Entity} {name : String} {q : Query} (h : Made e)
    (hq : e.hasManyQuery name = .ok q) : Made (e.keepHasMany name q)
  | markPersisted {e : Entity} (sent : Record) (h : Made e) : Made (e.markPersisted sent)
  | markDestroyed {e : Entity} (h : Made e) : Made e.markDestroyed

/-- The same object of the same store, for which no other queries are kept than before. -/
structure KeepsQueries (e e' : Entity) : Prop extends SameIdentity e e' where
  hasMany : ∀ name q, e'.hasMany.get? name = some q → e.hasMany.get? name = some q

variable {e e' : Entity} {name : String}

theorem KeepsQueries.refl (e : Entity) : KeepsQueries e e :=
  ⟨.refl e, fun _ _ h => h⟩

theorem keepsQueries_set {v : Value} (h : e.set name v = .ok e') : KeepsQueries e e' := by
  obtain ⟨_, _, _, _, ⟨_, _, _, rfl⟩ | rfl⟩ := set_eq_ok h
  . exact .refl _
  . exact ⟨⟨rfl, rfl, rfl⟩, fun _ _ h => h⟩

theorem keepsQueries_setRelated {target : Option (EntityRef × Identity)}
    (h : e.setRelated name target = .ok e') : KeepsQueries e e' := by
  obtain ⟨_, _, _, rfl⟩ := setRelated_eq_ok h
  exact ⟨⟨rfl, rfl, rfl⟩, fun _ _ h => h⟩

theorem keepsQueries_setRelatedId {id : Option String} (h : e.setRelatedId name id = .ok e')
    : KeepsQueries e e' := by
  obtain ⟨_, rfl⟩ | ⟨_, rfl⟩ := setRelatedId_eq_ok h
  . exact .refl _
  . exact ⟨⟨rfl, rfl, rfl⟩, fun _ _ h => h⟩

theorem keepsQueries_rehydrate {r : Record} (h : e.rehydrate r = .ok e') : KeepsQueries e e' := by
  refine ⟨(rehydrate_eq_ok h).1, ?_⟩
  unfold rehydrate at h
  split at h
  . cases h
  . cases h
    intro name q hq
    cases hq

theorem keepsQueries_finishLoad (e : Entity) (name : String) (load : LoadRef)
    (result : Except StoreError (Option EntityRef))
    : KeepsQueries e (e.finishLoad name load result) := by
  unfold finishLoad
  split
  . cases result <;> exact ⟨⟨rfl, rfl, rfl⟩, fun _ _ h => h⟩
  . exact .refl e

theorem keepsQueries_cachePreloaded (e : Entity) (name : String) (target : Option EntityRef)
    : KeepsQueries e (e.cachePreloaded name target) := by
  unfold cachePreloaded
  split
  . exact .refl e
  . exact ⟨⟨rfl, rfl, rfl⟩, fun _ _ h => h⟩

/-- The query for what points back, as it is built if none is kept. -/
def builtQuery (e : Entity) (name : String) : Except StoreError Query :=
  { e with hasMany := .empty }.hasManyQuery name

theorem SameIdentity.builtQuery (h : SameIdentity e e') (name : String)
    : e'.builtQuery name = e.builtQuery name := by
  unfold Entity.builtQuery hasManyQuery typeName
  simp only [Keyed.get?_empty]
  rw [h.objectType, h.store, h.id]

/-- The queries that are kept are those that would be built. -/
def KeepsBuilt (e : Entity) : Prop :=
  ∀ name q, e.hasMany.get? name = some q → e.builtQuery name = .ok q

theorem KeepsBuilt.hasManyQuery (h : e.KeepsBuilt) (name : String)
    : e.hasManyQuery name = e.builtQuery name := by
  cases hkept : e.hasMany.get? name with
  | some q =>
    rw [h name q hkept]
    unfold Entity.hasManyQuery
    rw [hkept]
  | none =>
    unfold builtQuery Entity.hasManyQuery
    rw [hkept, Keyed.get?_empty]
    rfl

theorem KeepsBuilt.of_keeps (h : e.KeepsBuilt) (hkeeps : KeepsQueries e e') : e'.KeepsBuilt := by
  intro name q hq
  rw [hkeeps.toSameIdentity.builtQuery]
  exact h name q (hkeeps.hasMany name q hq)

theorem KeepsBuilt.keepHasMany (h : e.KeepsBuilt) {q : Query} (hq : e.hasManyQuery name = .ok q)
    : (e.keepHasMany name q).KeepsBuilt := by
  have hidentity : SameIdentity e (e.keepHasMany name q) := ⟨rfl, rfl, rfl⟩
  intro name' q' hq'
  rw [hidentity.builtQuery]
  unfold Entity.keepHasMany at hq'
  rw [Keyed.get?_insert] at hq'
  split at hq'
  . next hname =>
    injection hq' with hq'
    rw [hname, ← hq', ← h.hasManyQuery]
    exact hq
  . exact h name' q' hq'

theorem Made.keepsBuilt (h : e.Made) : e.KeepsBuilt := by
  have hnone : ∀ {e : Entity}, e.hasMany = .empty → e.KeepsBuilt := by
    intro e hempty name q hq
    rw [hempty] at hq
    cases hq
  induction h with
  | create => exact hnone rfl
  | hydrate h =>
    obtain ⟨_, _, _, rfl⟩ := hydrate_eq_ok.mp h
    exact hnone rfl
  | copyAs h =>
    unfold Entity.copyAs at h
    split at h
    . cases h
    . cases h
      exact hnone rfl
  | set _ hset ih => exact ih.of_keeps (keepsQueries_set hset)
  | setRelated _ hset ih => exact ih.of_keeps (keepsQueries_setRelated hset)
  | setRelatedId _ hset ih => exact ih.of_keeps (keepsQueries_setRelatedId hset)
  | rehydrate _ hr ih => exact ih.of_keeps (keepsQueries_rehydrate hr)
  | finishLoad name load result _ ih => exact ih.of_keeps (keepsQueries_finishLoad _ name load result)
  | cachePreloaded name target _ ih => exact ih.of_keeps (keepsQueries_cachePreloaded _ name target)
  | keepHasMany _ hq ih => exact ih.keepHasMany hq
  | setLink _ _ _ ih | markPersisted _ _ ih | markDestroyed _ ih =>
    exact ih.of_keeps ⟨⟨rfl, rfl, rfl⟩, fun _ _ h => h⟩

end Entity

theorem Expression.evaluate_equals_relation (r : Record) (name id : String)
    : evaluate r (equals (.relation name) (.string id)) = true
        ↔
      ∃ foreignId, r.relationId? name = some foreignId
        ∧ Text.lowercase foreignId = Text.lowercase id := by
  unfold equals evaluate Test.evaluate Operator.apply
  cases hforeignId : r.relationId? name <;>
    simp [Field.read, hforeignId, Value.matchesValue, Value.compare?]

theorem Expression.normalize_pointsAt {limit : Nat} (hcap : 1 ≤ limit) (relation id : String)
    : ∃ n, (pointsAt relation id).normalize limit = .ok n := by
  have hclauses : clauses limit (pointsAt relation id) = .ok [[pointsAt relation id]] := by
    unfold clauses withinLimit
    exact if_neg (Nat.not_lt.mpr hcap)
  unfold normalize
  rw [hclauses]
  exact ⟨_, rfl⟩

theorem Field.resolve_relation {t : ObjectType} {name : String}
    (hback : (t.belongsTo? name).isSome = true) (hattr : t.attribute? name = none)
    : resolve t name = .ok (relation name) := by
  unfold resolve
  rw [hattr, if_pos hback]

namespace Adapter

/-- The string is the id of a stored record, or of one that a stored record points at. -/
def Mentions (a : Adapter) (id : String) : Prop :=
  ∃ typeName id' r, a.record? typeName id' = some r
    ∧ (r.id = id ∨ ∃ name, r.relationId? name = some id)

/-- No two ids differ in case only. -/
def CaseDistinct (a : Adapter) : Prop :=
  ∀ id id', a.Mentions id → a.Mentions id' → Text.lowercase id = Text.lowercase id' → id = id'

/-- All ids that the stored records have and point at. -/
def mentioned (a : Adapter) : List String :=
  a.tables.values.flatMap fun table =>
    table.values.flatMap fun r => r.id :: r.belongsTo.values.filterMap id

theorem Mentions.mem_mentioned {a : Adapter} {id : String} (h : a.Mentions id) : id ∈ a.mentioned := by
  obtain ⟨typeName, id', r, hr, hid⟩ := h
  unfold record? table at hr
  cases htable : a.tables.get? typeName with
  | none =>
    rw [htable] at hr
    cases hr
  | some table =>
    rw [htable] at hr
    have hmem := (Keyed.mem_values_iff _ _).mpr ⟨typeName, htable⟩
    refine List.mem_flatMap.mpr ⟨table, hmem, List.mem_flatMap.mpr ⟨r, ?_, ?_⟩⟩
    . exact (Keyed.mem_values_iff _ _).mpr ⟨id', hr⟩
    . rcases hid with rfl | ⟨name, hname⟩
      . exact List.mem_cons_self
      . have hforeignId : some id ∈ r.belongsTo.values :=
          (Keyed.mem_values_iff _ _).mpr ⟨name, Option.join_eq_some_iff.mp hname⟩
        exact List.mem_cons_of_mem _ (List.mem_filterMap.mpr ⟨some id, hforeignId, rfl⟩)

theorem caseDistinct_of_mentioned {a : Adapter}
    (h : ∀ id ∈ a.mentioned, ∀ id' ∈ a.mentioned, Text.lowercase id = Text.lowercase id' → id = id')
    : a.CaseDistinct :=
  fun id id' hid hid' => h id hid.mem_mentioned id' hid'.mem_mentioned

theorem CaseDistinct.evaluate_equals_relation {a : Adapter} (h : a.CaseDistinct) {typeName id : String}
    (hid : a.Mentions id) {r : Record} (hr : r ∈ (a.table typeName).values) (name : String)
    : Expression.evaluate r (.equals (.relation name) (.string id))
        =
      Expression.evaluate r (.pointsAt name id) := by
  rw [Bool.eq_iff_iff, Expression.evaluate_equals_relation]
  unfold Expression.evaluate
  rw [beq_iff_eq]
  constructor
  . rintro ⟨foreignId, hforeignId, halike⟩
    obtain ⟨id', hstored⟩ := (Keyed.mem_values_iff _ r).mp hr
    rw [hforeignId, h foreignId id ⟨typeName, id', r, hstored, .inr ⟨name, hforeignId⟩⟩ hid halike]
  . intro hpoints
    exact ⟨id, hpoints, rfl⟩

end Adapter

namespace Entity

/-- Where a value is asked for, an entity stands for its id. -/
def asValue (e : Entity) : Value :=
  .string e.id

/-- Where no two ids differ in case only, the query for what points back at a stored entity and the
filter for it on the other side find the same records: those that have the id of the entity, in ascending
order of their ids. -/
theorem reverse_lookups_agree {a : Adapter} (ha : a.Reached) (honline : a.offline = false)
    (hcase : a.CaseDistinct) {e : Entity} (hmade : e.Made) {stored : Record}
    (hstored : a.record? e.typeName e.id = some stored) {name : String} {r : Relationship}
    {t : ObjectType} (hmany : e.objectType.hasMany? name = some r)
    (htype : e.store.objectType r.foreignType = .ok t)
    (hback : (t.belongsTo? r.foreignName).isSome = true)
    (hattr : t.attribute? r.foreignName = none) (hcap : 1 ≤ e.store.config.maxClauses)
    : ∃ q q' found, e.hasManyQuery name = .ok q
        ∧
      (Query.ofType e.store t).refineBy [(r.foreignName, e.asValue)] = .ok q'
        ∧
      a.query q = .ok found
        ∧
      a.query q' = .ok found
        ∧
      (∀ b, b ∈ found
        ↔
      (∃ id, a.record? t.name id = some b) ∧ b.relationId? r.foreignName = some e.id)
        ∧
      found.Pairwise fun b b' => b.id < b'.id := by
  have hid : a.Mentions e.id :=
    ⟨e.typeName, e.id, stored, hstored, .inl (ha.wellKept _ _ _ hstored).2⟩
  have hquery : e.hasManyQuery name
      = .ok ((Query.ofType e.store t).and (.pointsAt r.foreignName e.id)) := by
    rw [hmade.keepsBuilt.hasManyQuery]
    unfold builtQuery hasManyQuery
    simp only [Keyed.get?_empty, hmany, htype]
    rfl
  have hoperand : (Field.relation r.foreignName).bindScalar e.asValue = .ok (.string e.id) := rfl
  have hquery' :=
    Query.refineBy_singleton e.store (Field.resolve_relation hback hattr) hoperand
  obtain ⟨_, hn⟩ := Expression.normalize_pointsAt hcap r.foreignName e.id
  obtain ⟨_, hn'⟩ :=
    Expression.normalize_all_equals hcap (.relation r.foreignName) (.string e.id)
  refine ⟨_, _, _, hquery, hquery', a.query_and_eq_filter ha.faults_eq honline t hn, ?_, ?_, ?_⟩
  . rw [a.query_and_eq_filter ha.faults_eq honline t hn']
    congr 1
    apply List.filter_congr
    intro b hb
    rw [← hcase.evaluate_equals_relation hid hb]
    simp [Expression.evaluate, Expression.evaluateAll]
  . intro b
    rw [List.mem_filter, Keyed.mem_values_iff]
    unfold Expression.evaluate
    rw [beq_iff_eq]
    rfl
  . exact (Adapter.values_pairwise fun id b hb => (ha.wellKept t.name id b hb).2).filter _

def gardenType : ObjectType := (ObjectType.ofName "garden").addHasMany "plants" "plant" "garden"

def plantType : ObjectType := (ObjectType.ofName "plant").addBelongsTo "garden" "garden" "plants"

def gardenStore : Store := ⟨0, (Keyed.empty.insert "garden" gardenType).insert "plant" plantType, {}⟩

def plant (id garden : String) : Record := (Record.ofId "plant" id).withRelation "garden" (some garden)

def gardens : Adapter :=
  (((Adapter.empty.insert (.ofId "garden" "north")).insert (plant "rose" "north")).insert
    (plant "oak" "south")).insert (plant "fern" "north")

def northGarden : Entity := bare gardenStore gardenType "north" true

def northPlants : Query := (Query.ofType gardenStore plantType).and (.pointsAt "garden" "north")

-- The query was asked for before, so it is kept with the garden.
theorem reverse_lookups_agree_of_garden
    : (northGarden.keepHasMany "plants" northPlants).Made
        ∧
      ∃ q q' found, (northGarden.keepHasMany "plants" northPlants).hasManyQuery "plants" = .ok q
        ∧
      (Query.ofType gardenStore plantType).refineBy [("garden", northGarden.asValue)] = .ok q'
        ∧
      gardens.query q = .ok found
        ∧
      gardens.query q' = .ok found
        ∧
      plant "fern" "north" ∈ found
        ∧
      plant "oak" "south" ∉ found := by
  have hreached : gardens.Reached := (((Adapter.Reached.empty.insert _).insert _).insert _).insert _
  have hcase : gardens.CaseDistinct := Adapter.caseDistinct_of_mentioned (by decide)
  have hhydrate : hydrate gardenStore gardenType (.ofId "garden" "north") = .ok northGarden := rfl
  have hasked : northGarden.hasManyQuery "plants" = .ok northPlants := rfl
  have hmade := (Made.hydrate hhydrate).keepHasMany hasked
  have hstored : gardens.record? "garden" "north" = some (.ofId "garden" "north") := rfl
  have hmany : gardenType.hasMany? "plants"
      = some ⟨.hasMany, "garden", "plant", "plants", "garden"⟩ := rfl
  have htype : gardenStore.objectType "plant" = .ok plantType := rfl
  obtain ⟨q, q', found, hq, hq', hfound, hfound', hmem, _⟩ :=
    reverse_lookups_agree hreached rfl hcase hmade hstored hmany htype rfl rfl (by decide)
  refine ⟨hmade, q, q', found, hq, hq', hfound, hfound', ?_, ?_⟩
  . exact (hmem _).mpr ⟨⟨"fern", rfl⟩, rfl⟩
  . intro hoak
    exact absurd ((hmem _).mp hoak).2 (by decide)

end Entity

end ObjectStore
