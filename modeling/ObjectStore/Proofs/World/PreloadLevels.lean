import ObjectStore.Proofs.World.PreloadProgress

/-!
This module contains what is reached when relationships are followed ahead of time. The objects of one
level are shared by all owners that point at them, and the objects of a level are the owners of the
next one.
-/

namespace ObjectStore.World

variable {w w' w₁ w₂ : World} {store : Store} {t foreign : ObjectType} {a : Adapter}
  {owners : List EntityRef} {name : String} {target : String → Option EntityRef}
  {children rest : List (String × PreloadTree)} {below : PreloadTree} {branch : Branch}
  {branches : List Branch} {call : BranchCall}

/-- Entities of a type none of whose relationships was changed. -/
def Level (store : Store) (t : ObjectType) (owners : List EntityRef) (w : World) : Prop :=
  ∀ e ∈ owners, e < w.entities.size ∧ (w.content e).Unchanged store t

def foreignIdsOf (w : World) (owners : List EntityRef) (name : String) : List String :=
  Entity.foreignIdsOf (owners.map w.content) name

def callFor (w : World) (store : Store) (foreign : ObjectType) (owners : List EntityRef)
    (name : String) : BranchCall :=
  ⟨store, name, foreign, owners.map fun e => (e, (w.content e).foreignId? name),
    w.foreignIdsOf owners name⟩

/-- The owners are linked to the objects that are stored under their foreign ids, and one id leads to
one entity. -/
structure Linked (a : Adapter) (store : Store) (foreign : ObjectType) (owners : List EntityRef)
    (name : String) (target : String → Option EntityRef) (w : World) : Prop where
  link : ∀ e ∈ owners, (w.entity e).links.get? name
    = some (.resolved (((w.content e).foreignId? name).bind target))
  object : ∀ id ∈ w.foreignIdsOf owners name,
    (target id).map w.content = a.object? store foreign id
  missing : ∀ id ∈ w.foreignIdsOf owners name, target id = none → a.record? foreign.name id = none
  lt : ∀ id ∈ w.foreignIdsOf owners name, ∀ e, target id = some e → e < w.entities.size

/-- The owners of the next level. -/
def nextLevel (w : World) (owners : List EntityRef) (name : String)
    (target : String → Option EntityRef) : List EntityRef :=
  (w.foreignIdsOf owners name).filterMap target

/-- The relationships of the owners and of all levels below were followed. -/
inductive Loaded (a : Adapter) (store : Store) (w : World) :
    ObjectType → List EntityRef → List (String × PreloadTree) → Prop where
  | done (t : ObjectType) (owners : List EntityRef) : Loaded a store w t owners []
  | nobody (t : ObjectType) (children : List (String × PreloadTree)) : Loaded a store w t [] children
  | cons {t foreign : ObjectType} {owners : List EntityRef} {name : String} {below : PreloadTree}
      {rest : List (String × PreloadTree)} {target : String → Option EntityRef}
      (type : store.foreignType? t name = some foreign)
      (linked : w.Linked a store foreign owners name target)
      (next : Loaded a store w foreign (w.nextLevel owners name target) below.children)
      (others : Loaded a store w t owners rest) : Loaded a store w t owners ((name, below) :: rest)

/-- What branches wait for, down the tree. -/
inductive Waits (a : Adapter) (store : Store) (w : World) :
    ObjectType → List EntityRef → List (String × PreloadTree) → List Branch → Prop where
  | done (t : ObjectType) (owners : List EntityRef) : Waits a store w t owners [] []
  | calling {t foreign : ObjectType} {owners : List EntityRef} {name : String} {below : PreloadTree}
      {rest : List (String × PreloadTree)} {branches : List Branch} (deadline : Nat)
      (type : store.foreignType? t name = some foreign)
      (others : Waits a store w t owners rest branches)
      : Waits a store w t owners ((name, below) :: rest)
          (.calling (w.callFor store foreign owners name) deadline below :: branches)
  | descending {t foreign : ObjectType} {owners : List EntityRef} {name : String}
      {below : PreloadTree} {rest : List (String × PreloadTree)} {inner branches : List Branch}
      {target : String → Option EntityRef} (type : store.foreignType? t name = some foreign)
      (linked : w.Linked a store foreign owners name target)
      (next : Waits a store w foreign (w.nextLevel owners name target) below.children inner)
      (others : Waits a store w t owners rest branches)
      : Waits a store w t owners ((name, below) :: rest) (.descending inner :: branches)
  | finished {t foreign : ObjectType} {owners : List EntityRef} {name : String}
      {below : PreloadTree} {rest : List (String × PreloadTree)} {branches : List Branch}
      {target : String → Option EntityRef} (type : store.foreignType? t name = some foreign)
      (linked : w.Linked a store foreign owners name target)
      (next : Loaded a store w foreign (w.nextLevel owners name target) below.children)
      (others : Waits a store w t owners rest branches)
      : Waits a store w t owners ((name, below) :: rest) (.finished :: branches)

theorem Grows.level (h : Grows w w') (hlevel : w.Level store t owners) : w'.Level store t owners := by
  intro e he
  obtain ⟨hlt, hunchanged⟩ := hlevel e he
  rw [h.content e hlt]
  exact ⟨Nat.lt_of_lt_of_le hlt h.size_le, hunchanged⟩

theorem Grows.map_content (h : Grows w w') (hlevel : w.Level store t owners)
    : owners.map w'.content = owners.map w.content :=
  List.map_congr_left fun e he => h.content e (hlevel e he).1

theorem Grows.foreignIdsOf (h : Grows w w') (hlevel : w.Level store t owners) (name : String)
    : w'.foreignIdsOf owners name = w.foreignIdsOf owners name := by
  unfold World.foreignIdsOf
  rw [h.map_content hlevel]

theorem Grows.callFor (h : Grows w w') (hlevel : w.Level store t owners) (foreign : ObjectType)
    (name : String) : w'.callFor store foreign owners name = w.callFor store foreign owners name := by
  unfold World.callFor
  rw [h.foreignIdsOf hlevel]
  congr 1
  apply List.map_congr_left
  intro e he
  rw [h.content e (hlevel e he).1]

theorem Grows.nextLevel (h : Grows w w') (hlevel : w.Level store t owners) (name : String)
    (target : String → Option EntityRef)
    : w'.nextLevel owners name target = w.nextLevel owners name target := by
  unfold World.nextLevel
  rw [h.foreignIdsOf hlevel]

theorem Grows.linked (h : Grows w w') (hlevel : w.Level store t owners)
    (hlinked : w.Linked a store foreign owners name target)
    : w'.Linked a store foreign owners name target := by
  constructor
  . intro e he
    rw [h.content e (hlevel e he).1]
    exact h.resolved e (hlevel e he).1 name _ (hlinked.link e he)
  . intro id hid
    rw [h.foreignIdsOf hlevel] at hid
    rw [← hlinked.object id hid]
    cases htarget : target id with
    | none => rfl
    | some e => rw [Option.map_some, Option.map_some, h.content e (hlinked.lt id hid e htarget)]
  . intro id hid
    rw [h.foreignIdsOf hlevel] at hid
    exact hlinked.missing id hid
  . intro id hid e he
    rw [h.foreignIdsOf hlevel] at hid
    exact Nat.lt_of_lt_of_le (hlinked.lt id hid e he) h.size_le

/-- The objects of the next level are as they are stored. -/
theorem Linked.nextLevel (h : w.Linked a store foreign owners name target)
    : w.Level store foreign (w.nextLevel owners name target) := by
  intro e he
  obtain ⟨id, hid, htarget⟩ := List.mem_filterMap.1 he
  refine ⟨h.lt id hid e htarget, ?_⟩
  have hobject := h.object id hid
  rw [htarget, Option.map_some] at hobject
  obtain ⟨r, hr⟩ := Adapter.exists_record_of_object? hobject.symm
  exact Entity.unchanged_of_ofRecord? hr

theorem Linked.map_content_nextLevel (h : w.Linked a store foreign owners name target)
    : (w.nextLevel owners name target).map w.content
        =
      (w.foreignIdsOf owners name).filterMap (a.object? store foreign) := by
  unfold World.nextLevel
  rw [List.map_filterMap]
  exact List.filterMap_congr h.object

theorem Loaded.grows (h : Loaded a store w t owners children) (hlevel : w.Level store t owners)
    (hgrows : Grows w w') : Loaded a store w' t owners children := by
  induction h with
  | done t owners => exact .done t owners
  | nobody t children => exact .nobody t children
  | cons htype hlinked _ _ ihnext ihothers =>
    refine .cons htype (hgrows.linked hlevel hlinked) ?_ (ihothers hlevel)
    rw [hgrows.nextLevel hlevel]
    exact ihnext hlinked.nextLevel

theorem Waits.grows (h : Waits a store w t owners children branches)
    (hlevel : w.Level store t owners) (hgrows : Grows w w')
    : Waits a store w' t owners children branches := by
  induction h with
  | done t owners => exact .done t owners
  | calling deadline htype _ ihothers =>
    rw [← hgrows.callFor hlevel]
    exact .calling deadline htype (ihothers hlevel)
  | descending htype hlinked _ _ ihnext ihothers =>
    refine .descending htype (hgrows.linked hlevel hlinked) ?_ (ihothers hlevel)
    rw [hgrows.nextLevel hlevel]
    exact ihnext hlinked.nextLevel
  | finished htype hlinked hnext _ ihothers =>
    refine .finished htype (hgrows.linked hlevel hlinked) ?_ (ihothers hlevel)
    rw [hgrows.nextLevel hlevel]
    exact hnext.grows hlinked.nextLevel hgrows

/-- Where all branches have finished, everything was followed. -/
theorem Waits.loaded (h : Waits a store w t owners children branches)
    (hfinished : branches.all Branch.isFinished = true) : Loaded a store w t owners children := by
  induction h with
  | done t owners => exact .done t owners
  | calling | descending =>
    rw [List.all_cons, Bool.and_eq_true] at hfinished
    cases hfinished.1
  | finished htype hlinked hnext _ ihothers =>
    rw [List.all_cons, Bool.and_eq_true] at hfinished
    exact .cons htype hlinked hnext (ihothers hfinished.2)

theorem Waits.ofBranches (htype : store.foreignType? t name = some foreign)
    (hlinked : w.Linked a store foreign owners name target)
    (h : Waits a store w foreign (w.nextLevel owners name target) below.children branches)
    : Waits a store w t owners [(name, below)] [.ofBranches branches] := by
  unfold Branch.ofBranches
  split
  . next hfinished => exact .finished htype hlinked (h.loaded hfinished) (.done t owners)
  . exact .descending htype hlinked h (.done t owners)

theorem Waits.cons {child : String × PreloadTree}
    (h : Waits a store w t owners [child] [branch])
    (h' : Waits a store w t owners rest branches)
    : Waits a store w t owners (child :: rest) (branch :: branches) := by
  cases h with
  | calling deadline htype _ => exact .calling deadline htype h'
  | descending htype hlinked hnext _ => exact .descending htype hlinked hnext h'
  | finished htype hlinked hnext _ => exact .finished htype hlinked hnext h'

theorem Waits.uncons {child : String × PreloadTree}
    (h : Waits a store w t owners (child :: rest) (branch :: branches))
    : Waits a store w t owners [child] [branch] ∧ Waits a store w t owners rest branches := by
  cases h with
  | calling deadline htype hothers => exact ⟨.calling deadline htype (.done t owners), hothers⟩
  | descending htype hlinked hnext hothers =>
    exact ⟨.descending htype hlinked hnext (.done t owners), hothers⟩
  | finished htype hlinked hnext hothers =>
    exact ⟨.finished htype hlinked hnext (.done t owners), hothers⟩

end ObjectStore.World
