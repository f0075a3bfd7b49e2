import ObjectStore.Proofs.World.Lookup

/-!
This module contains the calls that it takes to follow the relationships of a tree, as far as the stored
records determine them: one call for each node of the tree at most, for the ids that the objects of the
level above point at.
-/

namespace ObjectStore

/-- The type that a relationship of a type leads to. -/
def Store.foreignType? (store : Store) (t : ObjectType) (name : String) : Option ObjectType :=
  (t.belongsTo? name).bind fun r => (store.objectType r.foreignType).toOption

/-- The object that is stored under an id. -/
def Adapter.object? (a : Adapter) (store : Store) (t : ObjectType) (id : String) : Option Entity :=
  ((a.record? t.name id).map a.handOut).bind (Entity.ofRecord? store t)

/-- The ids that some objects point at, each once, in the order of the objects. -/
def Entity.foreignIdsOf (owners : List Entity) (name : String) : List String :=
  (owners.filterMap (·.foreignId? name)).eraseDups

theorem nodup_eraseDups (ids : List String) : ids.eraseDups.Nodup := by
  induction hlength : ids.length using Nat.strongRecOn generalizing ids with
  | ind n ih =>
    cases ids with
    | nil => exact List.nodup_nil
    | cons id rest =>
      have hlt : (rest.filter fun id' => !id' == id).length < n := by
        rw [← hlength, List.length_cons]
        exact Nat.lt_succ_of_le (List.length_filter_le ..)
      rw [List.eraseDups_cons, List.nodup_cons, List.mem_eraseDups, List.mem_filter]
      refine ⟨?_, ih _ hlt _ rfl⟩
      rintro ⟨_, hne⟩
      simp at hne

theorem Entity.nodup_foreignIdsOf (owners : List Entity) (name : String)
    : (foreignIdsOf owners name).Nodup :=
  nodup_eraseDups _

namespace PreloadTree

/-- The relationships of a level are in the order of their names. -/
inductive WellFormed : PreloadTree → Prop where
  | node {children : List (String × PreloadTree)} (ascending : Ascending children)
      (below : ∀ name tree, (name, tree) ∈ children → WellFormed tree) : WellFormed (node children)

/-- The names along a way down the tree. -/
inductive HasPath : PreloadTree → List String → Prop where
  | nil (tree : PreloadTree) : HasPath tree []
  | cons {children : List (String × PreloadTree)} {name : String} {below : PreloadTree}
      {path : List String} (child : (name, below) ∈ children) (rest : HasPath below path)
      : HasPath (node children) (name :: path)

mutual

/-- The calls for the relationships of some objects of a type. -/
def calls (a : Adapter) (store : Store) (t : ObjectType) (owners : List Entity) :
    PreloadTree → List AdapterCall
  | node children => childCalls a store t owners children

def childCalls (a : Adapter) (store : Store) (t : ObjectType) (owners : List Entity) :
    List (String × PreloadTree) → List AdapterCall
  | [] => []
  | (name, below) :: rest =>
    let ids := Entity.foreignIdsOf owners name
    let here :=
      match store.foreignType? t name with
      | none => []
      | some foreign =>
        (if ids.isEmpty then [] else [.getAll foreign.name ids])
          ++ below.calls a store foreign (ids.filterMap (a.object? store foreign))
    here ++ childCalls a store t owners rest

end

theorem wellFormed_empty : WellFormed empty :=
  .node .nil nofun

theorem WellFormed.children {tree : PreloadTree} (h : tree.WellFormed)
    : Ascending tree.children ∧ ∀ name below, (name, below) ∈ tree.children → below.WellFormed := by
  obtain ⟨hascending, hbelow⟩ := h
  exact ⟨hascending, hbelow⟩

theorem WellFormed.insertSegments {tree : PreloadTree} (h : tree.WellFormed) (segments : List String)
    : (PreloadTree.insertSegments segments tree).WellFormed := by
  induction segments generalizing tree with
  | nil =>
    cases tree
    exact h
  | cons s ss ih =>
    obtain ⟨hascending, hbelow⟩ := h
    next children =>
    refine .node hascending.insertEntry ?_
    intro name tree hmem
    rcases mem_insertEntry hmem with heq | hmem
    . cases heq
      apply ih
      cases hlookup : children.lookup s with
      | none => exact wellFormed_empty
      | some below => exact hbelow s below ((hascending.mem_iff_lookup s below).2 hlookup)
    . exact hbelow name tree hmem

theorem WellFormed.insertPath {tree : PreloadTree} (h : tree.WellFormed) (path : String)
    : (tree.insertPath path).WellFormed :=
  h.insertSegments _

/-- The tree of a query to which paths were added is well-formed. -/
theorem wellFormed_of_following {q q' : Query} {paths : List String} (h : q.preload.WellFormed)
    (hq : q.following paths = .ok q') : q'.preload.WellFormed := by
  unfold Query.following at hq
  obtain ⟨tree, htree, hok⟩ := bind_eq_ok.1 hq
  cases hok
  clear hq
  dsimp only
  generalize q.preload = start at h htree
  induction paths generalizing start with
  | nil =>
    cases htree
    exact h
  | cons path rest ih =>
    rw [List.foldlM_cons] at htree
    obtain ⟨next, hnext, hrest⟩ := bind_eq_ok.1 htree
    obtain ⟨_, _, hok⟩ := bind_eq_ok.1 hnext
    cases hok
    exact ih _ (h.insertPath path) hrest

variable {a : Adapter} {store : Store} {t foreign : ObjectType}

theorem foreignIdsOf_nil (name : String) : Entity.foreignIdsOf [] name = [] := rfl

theorem calls_eq_childCalls (owners : List Entity) (tree : PreloadTree)
    : tree.calls a store t owners = childCalls a store t owners tree.children := by
  cases tree with
  | node children =>
    rw [calls]
    rfl

theorem childCalls_cons (owners : List Entity) {name : String}
    (hforeign : store.foreignType? t name = some foreign) (below : PreloadTree)
    (rest : List (String × PreloadTree))
    : childCalls a store t owners ((name, below) :: rest)
        =
      ((if (Entity.foreignIdsOf owners name).isEmpty then []
          else [.getAll foreign.name (Entity.foreignIdsOf owners name)])
        ++ below.calls a store foreign
          ((Entity.foreignIdsOf owners name).filterMap (a.object? store foreign)))
        ++ childCalls a store t owners rest := by
  rw [childCalls, hforeign]

mutual

/-- Without objects there is nothing to ask for. -/
theorem calls_nil (t : ObjectType) (tree : PreloadTree) : tree.calls a store t [] = [] := by
  cases tree with
  | node children =>
    rw [calls]
    exact childCalls_nil t children

theorem childCalls_nil (t : ObjectType) (children : List (String × PreloadTree))
    : childCalls a store t [] children = [] := by
  cases children with
  | nil => rw [childCalls]
  | cons child rest =>
    obtain ⟨name, below⟩ := child
    rw [childCalls, childCalls_nil t rest]
    split
    . rfl
    . next foreign _ =>
      rw [foreignIdsOf_nil, List.filterMap_nil, calls_nil foreign below]
      rfl

end

mutual

/-- However many objects there are, each node of the tree costs one call at most. -/
theorem length_calls_le (t : ObjectType) (owners : List Entity) (tree : PreloadTree)
    : (tree.calls a store t owners).length ≤ tree.size := by
  cases tree with
  | node children =>
    rw [calls, size]
    exact length_childCalls_le t owners children

theorem length_childCalls_le (t : ObjectType) (owners : List Entity)
    (children : List (String × PreloadTree))
    : (childCalls a store t owners children).length ≤ childrenSize children := by
  cases children with
  | nil =>
    rw [childCalls]
    exact Nat.zero_le _
  | cons child rest =>
    obtain ⟨name, below⟩ := child
    have hrest := length_childCalls_le t owners rest
    rw [childCalls, childrenSize]
    split
    . rw [List.nil_append]
      omega
    . next foreign _ =>
      have hbelow := length_calls_le foreign
        ((Entity.foreignIdsOf owners name).filterMap (a.object? store foreign)) below
      rw [List.length_append, List.length_append]
      split
      . rw [List.length_nil]
        omega
      . rw [List.length_singleton]
        omega

end

end PreloadTree

end ObjectStore
