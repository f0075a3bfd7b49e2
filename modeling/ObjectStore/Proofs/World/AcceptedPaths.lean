import ObjectStore.Proofs.Adapter.Query
import ObjectStore.Proofs.World.PreloadPaths

/-!
This module proves what the preload tree of a query is like: it is made of paths that the query accepts,
and along such a path there is a type for every relationship. The paths that a query accepts depend on
its store and its type only, which no call of a chain changes.
-/

namespace ObjectStore

/-- One call of a chain that builds a query with relationships to follow. -/
inductive IncludeStep where
  | build (step : QueryStep)
  | follow (paths : List String)
  | display (formats : Option (List DisplayFormat))

def IncludeStep.apply (q : Query) : IncludeStep → Except StoreError Query
  | build step => step.apply q
  | follow paths => q.following paths
  | display formats => q.withDisplay formats

def Query.buildAhead (q : Query) (steps : List IncludeStep) : Except StoreError Query :=
  steps.foldlM IncludeStep.apply q

/-- No relationship to follow has an empty name. -/
def Schema.RelationsNamed (s : Schema) : Prop :=
  ∀ name t, s.get? name = some t → t.belongsTo? "" = none

namespace Store

variable {store : Store} {t foreign : ObjectType} {name : String} {path front back : List String}
  {tree below : PreloadTree} {children : List (String × PreloadTree)}

/-- The type that some relationships lead to, one after the other. -/
def typeAlong? (store : Store) (t : ObjectType) : List String → Option ObjectType
  | [] => some t
  | name :: path => (store.foreignType? t name).bind fun foreign => store.typeAlong? foreign path

/-- Along every way down a tree there are relationships to follow. -/
def Supports (store : Store) (t : ObjectType) (tree : PreloadTree) : Prop :=
  ∀ path, tree.HasPath path → (store.typeAlong? t path).isSome = true

theorem objectType_eq_ok : store.objectType name = .ok t ↔ store.schema.get? name = some t := by
  unfold objectType
  split <;> simp_all

theorem foreignType?_eq_some
    : store.foreignType? t name = some foreign
        ↔
      ∃ r, t.belongsTo? name = some r ∧ store.objectType r.foreignType = .ok foreign := by
  unfold foreignType?
  rw [Option.bind_eq_some_iff]
  apply exists_congr
  intro r
  cases store.objectType r.foreignType <;> simp [Except.toOption]

theorem typeAlong?_append
    : store.typeAlong? t (front ++ back)
        =
      (store.typeAlong? t front).bind fun t => store.typeAlong? t back := by
  induction front generalizing t with
  | nil => rfl
  | cons name front ih =>
    rw [List.cons_append, typeAlong?, typeAlong?, Option.bind_assoc]
    simp only [ih]

theorem isSome_typeAlong?_cons
    : (store.typeAlong? t (name :: path)).isSome = true
        ↔
      ∃ foreign, store.foreignType? t name = some foreign
        ∧ (store.typeAlong? foreign path).isSome = true := by
  rw [typeAlong?]
  cases store.foreignType? t name <;> simp

theorem isSome_typeAlong?_of_prefix (h : (store.typeAlong? t path).isSome = true)
    (hbefore : front <+: path) : (store.typeAlong? t front).isSome = true := by
  obtain ⟨back, rfl⟩ := hbefore
  rw [typeAlong?_append] at h
  cases hfront : store.typeAlong? t front with
  | none =>
    rw [hfront] at h
    cases h
  | some t' => rfl

theorem ne_empty_of_typeAlong? (hnamed : store.schema.RelationsNamed) (ht : t.belongsTo? "" = none)
    (h : (store.typeAlong? t path).isSome = true) : ∀ name ∈ path, name ≠ "" := by
  induction path generalizing t with
  | nil => simp
  | cons name path ih =>
    obtain ⟨foreign, hforeign, hpath⟩ := isSome_typeAlong?_cons.1 h
    obtain ⟨r, hr, htype⟩ := foreignType?_eq_some.1 hforeign
    rw [List.forall_mem_cons]
    constructor
    . rintro rfl
      rw [ht] at hr
      cases hr
    . exact ih (hnamed _ _ (objectType_eq_ok.1 htype)) hpath

theorem Supports.child (h : store.Supports t (.node children)) (hchild : (name, below) ∈ children)
    : ∃ foreign, store.foreignType? t name = some foreign ∧ store.Supports foreign below := by
  obtain ⟨foreign, hforeign, _⟩ := isSome_typeAlong?_cons.1 (h [name] (.cons hchild (.nil below)))
  refine ⟨foreign, hforeign, ?_⟩
  intro path hpath
  obtain ⟨foreign', hforeign', hrest⟩ := isSome_typeAlong?_cons.1 (h (name :: path) (.cons hchild hpath))
  rw [Option.some.inj (hforeign.symm.trans hforeign')]
  exact hrest

theorem Supports.tail {child : String × PreloadTree} (h : store.Supports t (.node (child :: children)))
    : store.Supports t (.node children) := by
  intro path hpath
  apply h
  cases hpath with
  | nil => exact .nil _
  | cons hchild hrest => exact .cons (List.mem_cons_of_mem _ hchild) hrest

end Store

namespace Query

variable {q q' : Query} {store : Store} {t : ObjectType}

theorem checkSegments_eq_ok {names : List String}
    : checkSegments store t names = .ok () ↔ (store.typeAlong? t names).isSome = true := by
  induction names generalizing t with
  | nil => simp [checkSegments, Store.typeAlong?]
  | cons name names ih =>
    rw [checkSegments, Store.isSome_typeAlong?_cons]
    simp only [Store.foreignType?_eq_some]
    split
    . next hr => simp [hr]
    . next r hr =>
      simp only [bind_eq_ok, ih, hr, Option.some.injEq]
      constructor
      . rintro ⟨foreign, hforeign, h⟩
        exact ⟨foreign, ⟨r, rfl, hforeign⟩, h⟩
      . rintro ⟨foreign, ⟨_, rfl, hforeign⟩, h⟩
        exact ⟨foreign, hforeign, h⟩

theorem checkPath_eq_ok {path : String}
    : q.checkPath path = .ok ()
        ↔
      (Text.segments path).length ≤ q.store.config.maxPreloadDepth
        ∧ (q.store.typeAlong? q.objectType (Text.segments path)).isSome = true := by
  unfold checkPath
  dsimp only
  split
  . next h => simp [Nat.not_le.2 h]
  . next h => rw [checkSegments_eq_ok, and_iff_right (Nat.not_lt.1 h)]

theorem following_eq_ok {paths : List String}
    : q.following paths = .ok q'
        ↔
      (∀ path ∈ paths, q.checkPath path = .ok ())
        ∧ q' = { q with preload := paths.foldl PreloadTree.insertPath q.preload } := by
  have hfold : ∀ start tree : PreloadTree,
      (paths.foldlM (fun tree path => do q.checkPath path; return tree.insertPath path) start
          : Except StoreError PreloadTree) = .ok tree
        ↔
      (∀ path ∈ paths, q.checkPath path = .ok ())
        ∧ tree = paths.foldl PreloadTree.insertPath start := by
    intro start tree
    induction paths generalizing start with
    | nil =>
      simp [pure, Except.pure, eq_comm]
    | cons path rest ih =>
      simp only [List.foldlM_cons, bind_eq_ok, List.foldl_cons, List.forall_mem_cons]
      constructor
      . rintro ⟨next, ⟨_, hpath, hnext⟩, hrest⟩
        cases hnext
        rw [ih] at hrest
        exact ⟨⟨hpath, hrest.1⟩, hrest.2⟩
      . rintro ⟨⟨hpath, hrest⟩, htree⟩
        exact ⟨_, ⟨(), hpath, rfl⟩, (ih _).2 ⟨hrest, htree⟩⟩
  unfold following
  rw [bind_eq_ok]
  simp only [hfold]
  constructor
  . rintro ⟨_, ⟨hpaths, rfl⟩, h⟩
    cases h
    exact ⟨hpaths, rfl⟩
  . rintro ⟨hpaths, rfl⟩
    exact ⟨_, ⟨hpaths, rfl⟩, rfl⟩

theorem checkPath_congr (hstore : q'.store = q.store) (htype : q'.objectType = q.objectType)
    (path : String) : q'.checkPath path = q.checkPath path := by
  unfold checkPath
  rw [hstore, htype]

theorem target_of_apply {step : QueryStep} (h : step.apply q = .ok q')
    : q'.store = q.store ∧ q'.preload = q.preload := by
  cases step with
  | refine source args =>
    simp only [QueryStep.apply, refine] at h
    split at h <;> cases h
    exact ⟨rfl, rfl⟩
  | refineBy entries =>
    simp only [QueryStep.apply, refineBy] at h
    split at h <;> cases h
    exact ⟨rfl, rfl⟩
  | orderBy specs =>
    obtain ⟨order, _, h⟩ := bind_eq_ok.1 h
    cases h
    exact ⟨rfl, rfl⟩
  | and e | take limit | drop skip =>
    cases h
    exact ⟨rfl, rfl⟩

/-- A query has the tree of another one and of some paths that this one accepts. -/
structure Grown (q q' : Query) (inserted : List String) : Prop where
  store : q'.store = q.store
  objectType : q'.objectType = q.objectType
  preload : q'.preload = inserted.foldl PreloadTree.insertPath q.preload
  accepted : ∀ path ∈ inserted, q.checkPath path = .ok ()

theorem grown_of_following {paths : List String} (h : q.following paths = .ok q')
    : Grown q q' paths := by
  obtain ⟨hpaths, rfl⟩ := following_eq_ok.1 h
  exact ⟨rfl, rfl, rfl, hpaths⟩

theorem Grown.trans {q'' : Query} {first second : List String} (h : Grown q q' first)
    (h' : Grown q' q'' second) : Grown q q'' (first ++ second) where
  store := h'.store.trans h.store
  objectType := h'.objectType.trans h.objectType
  preload := by rw [h'.preload, h.preload, List.foldl_append]
  accepted := by
    intro path hpath
    rcases List.mem_append.1 hpath with hpath | hpath
    . exact h.accepted path hpath
    . rw [← checkPath_congr h.store h.objectType]
      exact h'.accepted path hpath

theorem exists_grown_of_includeStep {step : IncludeStep} (h : step.apply q = .ok q')
    : ∃ inserted, Grown q q' inserted := by
  cases step with
  | build step =>
    obtain ⟨hstore, hpreload⟩ := target_of_apply h
    exact ⟨[], hstore, objectType_of_apply h, hpreload, nofun⟩
  | follow paths => exact ⟨paths, grown_of_following h⟩
  | display formats => exact ⟨_, grown_of_following h⟩

theorem exists_grown_of_buildAhead {steps : List IncludeStep} (h : q.buildAhead steps = .ok q')
    : ∃ inserted, Grown q q' inserted := by
  unfold buildAhead at h
  induction steps generalizing q with
  | nil =>
    cases h
    exact ⟨[], rfl, rfl, rfl, nofun⟩
  | cons step steps ih =>
    rw [List.foldlM_cons] at h
    obtain ⟨next, hnext, h⟩ := bind_eq_ok.1 h
    obtain ⟨first, hfirst⟩ := exists_grown_of_includeStep hnext
    obtain ⟨rest, hrest⟩ := ih h
    exact ⟨first ++ rest, hfirst.trans hrest⟩

/-- Without empty names all segments of an accepted path enter the tree. -/
theorem pathNames_of_checkPath (hnamed : q.store.schema.RelationsNamed)
    (ht : q.objectType.belongsTo? "" = none) {path : String} (h : q.checkPath path = .ok ())
    : PreloadTree.pathNames path = Text.segments path := by
  obtain ⟨_, htypes⟩ := checkPath_eq_ok.1 h
  unfold PreloadTree.pathNames
  rw [List.filter_eq_self]
  intro name hname
  simpa using Store.ne_empty_of_typeAlong? hnamed ht htypes name hname

/-- The ways down the tree of a query are prefixes of accepted paths. -/
theorem Grown.ways {inserted : List String} (h : Grown q q' inserted) (hempty : q.preload = .empty)
    (hnamed : q.store.schema.RelationsNamed) (ht : q.objectType.belongsTo? "" = none)
    {way : List String} (hway : q'.preload.HasPath way)
    : way.length ≤ q.store.config.maxPreloadDepth
        ∧ (q.store.typeAlong? q.objectType way).isSome = true := by
  rw [h.preload, hempty] at hway
  obtain rfl | ⟨path, hpath, hfront⟩ := PreloadTree.hasPath_ofPaths.1 hway
  . exact ⟨Nat.zero_le _, rfl⟩
  . have haccepted := h.accepted path hpath
    rw [pathNames_of_checkPath hnamed ht haccepted] at hfront
    obtain ⟨hdepth, htypes⟩ := checkPath_eq_ok.1 haccepted
    exact ⟨hfront.length_le.trans hdepth, Store.isSome_typeAlong?_of_prefix htypes hfront⟩

theorem Grown.supports {inserted : List String} (h : Grown q q' inserted) (hempty : q.preload = .empty)
    (hnamed : q.store.schema.RelationsNamed) (ht : q.objectType.belongsTo? "" = none)
    : q'.store.Supports q'.objectType q'.preload := by
  intro way hway
  rw [h.store, h.objectType]
  exact (h.ways hempty hnamed ht hway).2

end Query

end ObjectStore
