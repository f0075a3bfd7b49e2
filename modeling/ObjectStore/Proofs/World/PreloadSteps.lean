import ObjectStore.Proofs.World.PreloadLevels

/-!
This module proves that every step of following relationships ahead of time does its part: an answer
links the owners that wait for it and begins with the level below, and what is sent then are calls that
were due.
-/

namespace ObjectStore.World

variable {w w' w₁ w₂ : World} {store : Store} {t foreign : ObjectType} {a : Adapter}
  {owners : List EntityRef} {name : String} {children rest : List (String × PreloadTree)}
  {below : PreloadTree} {branch : Branch} {branches : List Branch} {call : BranchCall}
  {ids : List String} {found : List (String × EntityRef)} {s : Stage} {e : EntityRef}
  {reporting : Reporting}

theorem grows_addAll (w : World) (xs : List Entity) : Grows w (w.addAll xs) where
  size_le := by
    rw [size_addAll]
    exact Nat.le_add_right _ _
  content e he := by
    unfold content
    rw [entity_addAll_of_lt he]
  resolved e he name target hlink := by
    rw [entity_addAll_of_lt he]
    exact hlink

namespace Hydrated

theorem ref_bounds (h : Hydrated a store t ids w found w')
    (he : e ∈ ids.filterMap fun id => found.lookup id)
    : w.entities.size ≤ e ∧ e < w'.entities.size := by
  rw [h.refs, List.mem_range'_1] at he
  rw [h.world, size_addAll]
  exact he

theorem map_content (h : Hydrated a store t ids w found w') {id : String} (hid : id ∈ ids)
    : (found.lookup id).map w'.content = a.object? store t id := by
  have hobject := h.object id hid
  cases hlookup : found.lookup id with
  | none =>
    rw [hlookup] at hobject
    exact hobject
  | some e =>
    rw [hlookup, Option.map_some] at hobject
    obtain ⟨r, hr⟩ := Adapter.exists_record_of_object? hobject.symm
    rw [← hobject, Option.map_some]
    unfold content
    rw [Entity.unlinked_of_links_eq_empty (Entity.links_of_ofRecord? hr)]

theorem grows (h : Hydrated a store t ids w found w') : Grows w w' := by
  rw [h.world]
  exact grows_addAll w _

end Hydrated

/-- The links that have to be resolved so that some relationships of some owners are followed. -/
def childLinks (owners : List EntityRef) (children : List (String × PreloadTree)) : List LinkRef :=
  children.flatMap fun child => owners.map fun e => (e, child.1)

theorem childLinks_singleton (owners : List EntityRef) (child : String × PreloadTree)
    : childLinks owners [child] = owners.map fun e => (e, child.1) :=
  List.flatMap_singleton ..

theorem childLinks_cons (owners : List EntityRef) (child : String × PreloadTree)
    (rest : List (String × PreloadTree))
    : childLinks owners (child :: rest) = childLinks owners [child] ++ childLinks owners rest := by
  rw [childLinks_singleton]
  exact List.flatMap_cons ..

theorem mem_childLinks {link : LinkRef} (h : link ∈ childLinks owners children)
    : link.1 ∈ owners := by
  obtain ⟨child, _, hmem⟩ := List.mem_flatMap.1 h
  obtain ⟨e, he, rfl⟩ := List.mem_map.1 hmem
  exact he

theorem childLinks_nodup (howners : owners.Nodup) (hchildren : Ascending children)
    : (childLinks owners children).Nodup := by
  unfold childLinks
  rw [List.nodup_flatMap]
  refine ⟨fun child _ => howners.map fun e e' heq => (Prod.mk.inj heq).1, ?_⟩
  apply hchildren.imp
  intro child child' hlt link hmem hmem'
  obtain ⟨e, _, rfl⟩ := List.mem_map.1 hmem
  obtain ⟨e', _, heq⟩ := List.mem_map.1 hmem'
  rw [(Prod.mk.inj heq).2] at hlt
  exact String.lt_irrefl _ hlt

/-- Some relationships of some owners are still to be followed. -/
def stageFor (a : Adapter) (store : Store) (t : ObjectType) (owners : List EntityRef)
    (children : List (String × PreloadTree)) (w : World) : Stage :=
  ⟨w, childLinks owners children, PreloadTree.childCalls a store t (owners.map w.content) children⟩

def stageOf (a : Adapter) (w : World) (branches : List Branch) : Stage :=
  ⟨w, Branch.allLinks branches, Branch.allDue a branches⟩

theorem stageFor_nil (a : Adapter) (store : Store) (t : ObjectType)
    (children : List (String × PreloadTree)) (w : World)
    : w.stageFor a store t [] children = stageOf a w [.finished] := by
  have hlinks : childLinks [] children = [] := List.flatMap_eq_nil_iff.2 fun _ _ => rfl
  unfold stageFor
  rw [hlinks, List.map_nil, PreloadTree.childCalls_nil]
  rfl

theorem stageOf_ofBranches (a : Adapter) (w : World) (branches : List Branch)
    : stageOf a w [.ofBranches branches] = stageOf a w branches := by
  unfold stageOf
  rw [Branch.allLinks_singleton, Branch.allDue_singleton, (Branch.ofBranches_eq a branches).1,
    (Branch.ofBranches_eq a branches).2.1]

theorem stageOf_descending (a : Adapter) (w : World) (branches : List Branch)
    : stageOf a w [.descending branches] = stageOf a w branches := by
  unfold stageOf
  rw [Branch.allLinks_singleton, Branch.allDue_singleton, Branch.links, Branch.due]

theorem stageOf_cons (a : Adapter) (w : World) (branch : Branch) (branches : List Branch)
    : stageOf a w (branch :: branches)
        =
      (stageOf a w [branch]).beside (Branch.allLinks branches) (Branch.allDue a branches) := by
  unfold stageOf Stage.beside
  rw [Branch.allLinks_singleton, Branch.allDue_singleton, Branch.allLinks, Branch.allDue]

theorem links_callFor
    : (w.callFor store foreign owners name).owners.map (fun owner =>
        (owner.1, (w.callFor store foreign owners name).relation))
        =
      owners.map fun e => (e, name) := by
  unfold callFor
  rw [List.map_map]
  rfl

theorem stageOf_calling (w₀ : World) (deadline : Nat)
    : stageOf a w [.calling (w₀.callFor store foreign owners name) deadline below]
        =
      ⟨w, owners.map fun e => (e, name),
        below.calls a store foreign
          ((w₀.foreignIdsOf owners name).filterMap (a.object? store foreign))⟩ := by
  unfold stageOf
  rw [Branch.allLinks_singleton, Branch.allDue_singleton, Branch.links, Branch.due, links_callFor]
  rfl

/-- Some relationships of some owners were followed as far as it goes at once. -/
structure Advances (a : Adapter) (store : Store) (t : ObjectType) (owners : List EntityRef)
    (children : List (String × PreloadTree)) (s : Stage) (w' : World) (branches : List Branch) :
    Prop where
  progress : Progress store.adapter s (stageOf a w' branches)
  waits : Waits a store w' t owners children branches

theorem Advances.cons {child : String × PreloadTree} {s' : Stage}
    (h : Advances a store t owners [child] s w₁ [branch])
    (h' : Advances a store t owners rest s' w₂ branches) (hworld : s'.world = w₁)
    (hlevel : w₁.Level store t owners)
    : Advances a store t owners (child :: rest) (s.beside s'.links s'.due) w₂
        (branch :: branches) := by
  subst hworld
  refine ⟨?_, (h.waits.grows hlevel h'.progress.grows).cons h'.waits⟩
  have hsecond := h'.progress.after (Branch.allLinks [branch]) (Branch.allDue a [branch])
  have hall := (h.progress.beside s'.links s'.due).trans hsecond
  rw [Branch.allLinks_singleton, Branch.allDue_singleton] at hall
  unfold stageOf
  rw [Branch.allLinks, Branch.allDue]
  exact hall

theorem Serves.zip_of_branchAnswer (hserves : w.Serves a store) (hstore : call.store = store)
    {records : List (Option Record)} (h : w.branchAnswer call = .ok records)
    : call.ids.zip records
        =
      call.ids.map fun id => (id, (a.record? call.foreignType.name id).map a.handOut) := by
  unfold branchAnswer at h
  split at h
  . next hempty =>
    rw [List.isEmpty_iff.1 hempty]
    rfl
  . obtain ⟨_, log, hadapter⟩ := hserves
    rw [Adapter.getAll_eq_ok h, hstore, hadapter, ← List.map_prod_left_eq_zip]
    rfl

/-- What an answer does: the owners are linked to the objects that were found, and these are the owners
of the next level. -/
structure Arrived (a : Adapter) (store : Store) (foreign : ObjectType) (owners : List EntityRef)
    (name : String) (found : List (String × EntityRef)) (w w' : World) : Prop where
  linked : w'.Linked a store foreign owners name fun id => found.lookup id
  next : (w.foreignIdsOf owners name).filterMap (fun id => found.lookup id)
    = w'.nextLevel owners name fun id => found.lookup id
  progress : ∀ children, Ascending children →
    Progress store.adapter
      ⟨w, owners.map fun e => (e, name),
        (PreloadTree.node children).calls a store foreign
          ((w.foreignIdsOf owners name).filterMap (a.object? store foreign))⟩
      (w'.stageFor a store foreign (w'.nextLevel owners name fun id => found.lookup id) children)

theorem mem_owners_callFor {id : Option String}
    : (e, id) ∈ (w.callFor store foreign owners name).owners
        ↔
      e ∈ owners ∧ id = (w.content e).foreignId? name := by
  unfold callFor
  rw [List.mem_map]
  constructor
  . rintro ⟨e', he', heq⟩
    cases heq
    exact ⟨he', rfl⟩
  . rintro ⟨he, rfl⟩
    exact ⟨e, he, rfl⟩

theorem ready_addAll {links : List LinkRef} {xs : List Entity} (hchildren : Ascending children)
    (hxs : ∀ x ∈ xs, x.links = .empty) (h : w.Ready links)
    : (w.addAll xs).Ready
        (childLinks (List.range' w.entities.size xs.length) children ++ links) := by
  have hnew : ∀ link ∈ childLinks (List.range' w.entities.size xs.length) children,
      w.entities.size ≤ link.1 ∧ link.1 < w.entities.size + xs.length :=
    fun link hmem => List.mem_range'_1.1 (mem_childLinks hmem)
  constructor
  . rw [List.nodup_append]
    refine ⟨childLinks_nodup List.nodup_range' hchildren, h.nodup, ?_⟩
    rintro link hmem link' hmem' rfl
    exact Nat.not_le_of_lt (h.lt link hmem') (hnew link hmem).1
  . intro link hmem
    rw [size_addAll]
    rcases List.mem_append.1 hmem with hmem | hmem
    . exact (hnew link hmem).2
    . exact Nat.lt_add_right _ (h.lt link hmem)
  . intro link hmem
    rcases List.mem_append.1 hmem with hmem | hmem
    . have hentity := List.mem_map_of_mem (f := (w.addAll xs).entity) (mem_childLinks hmem)
      rw [map_entity_addAll] at hentity
      rw [hxs _ hentity]
      rfl
    . rw [entity_addAll_of_lt (h.lt link hmem)]
      exact h.unknown link hmem

/-- New entities are linked to nothing, and no one else waits for one of their links. -/
theorem addAll_progress (w : World) {xs : List Entity} (hchildren : Ascending children)
    (hxs : ∀ x ∈ xs, x.links = .empty) (ref : AdapterRef) (links : List LinkRef)
    (due : List AdapterCall)
    : Progress ref ⟨w, links, due⟩
        ⟨w.addAll xs, childLinks (List.range' w.entities.size xs.length) children ++ links, due⟩ where
  grows := grows_addAll w xs
  ready others h := by
    rw [List.append_assoc]
    exact ready_addAll hchildren hxs h
  asked := ⟨[], ⟨rfl, fun _ => rfl, fun _ _ => rfl⟩, .refl _⟩

/-- The links that are resolved are those that waited for the answer. -/
theorem Cached.progress {relation : String} {pairs : List (EntityRef × Option String)}
    {target : String → Option EntityRef} (h : Cached relation pairs target w w')
    (hready : w.Ready (pairs.map fun owner => (owner.1, relation))) (ref : AdapterRef)
    (links : List LinkRef) (due : List AdapterCall)
    : Progress ref ⟨w, links ++ pairs.map (fun owner => (owner.1, relation)), due⟩
        ⟨w', links, due⟩ where
  grows := by
    refine ⟨Nat.le_of_eq h.size.symm, fun e _ => h.content e, ?_⟩
    intro e _ name t hlink
    rw [h.other e name]
    . exact hlink
    . rintro id hmem rfl
      rw [hready.unknown (e, name) (List.mem_map_of_mem hmem)] at hlink
      cases hlink
  ready others hall := by
    have hothers : w.Ready (pairs.map (fun owner => (owner.1, relation)) ++ (links ++ others)) := by
      rw [← List.append_assoc]
      exact hall.perm (List.perm_append_comm.append_right others)
    have hrest := hothers.right
    refine ⟨hrest.nodup, h.size.symm ▸ hrest.lt, ?_⟩
    intro link hmem
    rw [h.other]
    . exact hrest.unknown link hmem
    . rintro id howner rfl
      exact (List.nodup_append.1 hothers.nodup).2.2 _ (List.mem_map_of_mem howner) _ hmem rfl
  asked := ⟨[], asked_of_adapters_eq h.adapters ref, .refl _⟩

theorem linked_of_cached (hlevel : w.Level store t owners) (hgrows : Grows w w₂)
    (hhydrated : Hydrated a store foreign (w.foreignIdsOf owners name) w found w₁)
    (hcached : Cached name (w.callFor store foreign owners name).owners
      (fun id => found.lookup id) w₁ w₂)
    : w₂.Linked a store foreign owners name fun id => found.lookup id := by
  have hids := hgrows.foreignIdsOf hlevel name
  constructor
  . intro e he
    rw [hgrows.content e (hlevel e he).1]
    exact hcached.linked e _ (mem_owners_callFor.2 ⟨he, rfl⟩)
  . intro id hid
    rw [hids] at hid
    rw [← hhydrated.map_content hid]
    congr 1
    funext e
    exact hcached.content e
  . intro id hid
    rw [hids] at hid
    exact hhydrated.missing id hid
  . intro id hid e he
    rw [hids] at hid
    rw [hcached.size]
    exact (hhydrated.ref_bounds (List.mem_filterMap.2 ⟨id, hid, he⟩)).2

theorem arrived (hlevel : w.Level store t owners) (hready : w.Ready (owners.map fun e => (e, name)))
    (hhydrated : Hydrated a store foreign (w.foreignIdsOf owners name) w found w₁)
    (hcached : Cached name (w.callFor store foreign owners name).owners
      (fun id => found.lookup id) w₁ w₂)
    : Arrived a store foreign owners name found w w₂ := by
  have hobjects : ∀ x ∈ (w.foreignIdsOf owners name).filterMap (a.object? store foreign),
      x.links = .empty := by
    intro x hx
    obtain ⟨id, _, hobject⟩ := List.mem_filterMap.1 hx
    obtain ⟨r, hr⟩ := Adapter.exists_record_of_object? hobject
    exact Entity.links_of_ofRecord? hr
  -- First the objects are added, which need nothing from the owners, then the owners are linked.
  have hprogress : ∀ children, Ascending children → ∀ due,
      Progress store.adapter ⟨w, owners.map fun e => (e, name), due⟩
        ⟨w₂, childLinks ((w.foreignIdsOf owners name).filterMap fun id => found.lookup id) children,
          due⟩ := by
    intro children hchildren due
    have hadded := w.addAll_progress hchildren hobjects store.adapter
      (owners.map fun e => (e, name)) due
    rw [← hhydrated.world, ← hhydrated.refs] at hadded
    have hlinks : (w.callFor store foreign owners name).owners.map (fun owner => (owner.1, name))
        = owners.map fun e => (e, name) := links_callFor
    have hready₁ := (hadded.ready [] (by rw [List.append_nil]; exact hready)).left.right
    have hlinked := hcached.progress (hlinks.symm ▸ hready₁) store.adapter
      (childLinks ((w.foreignIdsOf owners name).filterMap fun id => found.lookup id) children) due
    rw [hlinks] at hlinked
    exact hadded.trans hlinked
  have hgrows : Grows w w₂ := (hprogress [] .nil []).grows
  have hlinked := linked_of_cached hlevel hgrows hhydrated hcached
  have hnext : (w.foreignIdsOf owners name).filterMap (fun id => found.lookup id)
      = w₂.nextLevel owners name fun id => found.lookup id := by
    unfold nextLevel
    rw [hgrows.foreignIdsOf hlevel]
  refine ⟨hlinked, hnext, ?_⟩
  intro children hchildren
  have hall := hprogress children hchildren
  unfold stageFor
  rw [hlinked.map_content_nextLevel, hgrows.foreignIdsOf hlevel, PreloadTree.calls, ← hnext]
  exact hall _

theorem Level.branchCall_eq_ok (hlevel : w.Level store t owners)
    (h : w.branchCall store t owners name = .ok call)
    : ∃ foreign, store.foreignType? t name = some foreign
        ∧
      call = w.callFor store foreign owners name := by
  have howners : owners.filterMap (fun e => ((w.entity e).preloadTarget? name).map ((e, ·)))
      = owners.map fun e => (e, (w.content e).foreignId? name) := by
    rw [← List.filterMap_eq_map']
    apply List.filterMap_congr
    intro e he
    unfold Entity.preloadTarget?
    rw [show (w.entity e).dirtyRelations = .empty from (hlevel e he).2.clean]
    rfl
  unfold branchCall at h
  split at h
  . cases h
  . next r hr =>
    obtain ⟨foreign, hforeign, h⟩ := bind_eq_ok.1 h
    refine ⟨foreign, ?_, ?_⟩
    . unfold Store.foreignType?
      rw [hr, Option.bind_some, hforeign]
      rfl
    . cases h
      unfold callFor foreignIdsOf Entity.foreignIdsOf
      rw [howners, List.filterMap_map, List.filterMap_map]
      rfl

theorem send_progress (w : World) (ref : AdapterRef) (links : List LinkRef) (call : AdapterCall)
    (due : List AdapterCall)
    : Progress ref ⟨w, links, call :: due⟩ ⟨(w.send ref call).2, links, due⟩ where
  grows := grows_of_entities_eq rfl
  ready _ h := h.aside rfl
  asked := ⟨[call], asked_send w ref call, .refl _⟩

theorem Progress.serves {s' : Stage} (h : Progress store.adapter s s')
    (hserves : s.world.Serves a store) : s'.world.Serves a store := by
  obtain ⟨calls, hasked, _⟩ := h.asked
  exact hasked.serves hserves

/-- An answer is taken in, whatever comes below. -/
def ArrivesWell (a : Adapter) (store : Store) (below : PreloadTree) : Prop :=
  ∀ {w w' : World} {t foreign : ObjectType} {owners : List EntityRef} {name : String}
    {branch : Branch}, w.Serves a store → w.Level store t owners →
      w.Ready (owners.map fun e => (e, name)) → store.foreignType? t name = some foreign →
      w.arriveBranch (w.callFor store foreign owners name) below = (.ok branch, w') →
      branch.healthy = true →
      Advances a store t owners [(name, below)]
        ⟨w, owners.map fun e => (e, name),
          below.calls a store foreign
            ((w.foreignIdsOf owners name).filterMap (a.object? store foreign))⟩ w' [branch]

/-- Some relationships begin to be followed, whatever the owners are. -/
def StartsWell (a : Adapter) (store : Store) (children : List (String × PreloadTree)) : Prop :=
  ∀ {w w' : World} {t : ObjectType} {owners : List EntityRef} {reporting : Reporting}
    {branches : List Branch}, w.Serves a store → w.Level store t owners →
      w.Ready (childLinks owners children) →
      w.startBranches store t owners reporting children = (.ok branches, w') →
      Branch.allHealthy branches = true →
      Advances a store t owners children (w.stageFor a store t owners children) w' branches

/-- What happens when an answer is taken in without an error. -/
theorem arriveBranch_eq_ok
    (h : w.arriveBranch call (.node children) = (.ok branch, w'))
    : ∃ records found w₁, w.branchAnswer call = .ok records
        ∧
      w.hydrateFound call (call.ids.zip records) = (.ok found, w₁)
        ∧
      (call.ids.filterMap (fun id => found.lookup id) = []
          ∧ branch = .finished
          ∧ w' = w₁.cacheFound call found
        ∨
      ∃ branches, (w₁.cacheFound call found).startBranches call.store call.foreignType
            (call.ids.filterMap fun id => found.lookup id) (.ofSize children.length) children
          = (.ok branches, w')
          ∧ branch = .ofBranches branches) := by
  rw [arriveBranch] at h
  cases hanswer : w.branchAnswer call with
  | error err =>
    rw [hanswer] at h
    cases h
  | ok records =>
    rw [hanswer] at h
    dsimp only at h
    cases hfound : w.hydrateFound call (call.ids.zip records) with | mk result w₁ =>
    rw [hfound] at h
    cases result with
    | error err => cases h
    | ok found =>
      refine ⟨records, found, w₁, rfl, hfound, ?_⟩
      dsimp only at h
      split at h
      . next hempty =>
        cases h
        exact .inl ⟨List.isEmpty_iff.1 hempty, rfl, rfl⟩
      . split at h
        . cases h
        . next branches w₂ hstart =>
          cases h
          exact .inr ⟨branches, hstart, rfl⟩

theorem arrivesWell_node (hchildren : Ascending children) (hstarts : StartsWell a store children)
    : ArrivesWell a store (.node children) := by
  intro w w' t foreign owners name branch hserves hlevel hready htype h hhealthy
  obtain ⟨records, found, w₁, hanswer, hfound, hend⟩ := arriveBranch_eq_ok h
  rw [hserves.zip_of_branchAnswer rfl hanswer] at hfound
  have hhydrated : Hydrated a store foreign (w.foreignIdsOf owners name) w found w₁ :=
    hydrateFound_eq_ok (Entity.nodup_foreignIdsOf _ name) hfound
  have hcached : Cached name (w.callFor store foreign owners name).owners
      (fun id => found.lookup id) w₁
      (w₁.cacheFound (w.callFor store foreign owners name) found) := by
    apply cached_cacheFound (w.callFor store foreign owners name)
    intro e id hmem
    obtain ⟨he, hid⟩ := mem_owners_callFor.1 hmem
    obtain ⟨hlt, hunchanged⟩ := hlevel e he
    rw [hhydrated.grows.content e hlt]
    exact ⟨Nat.lt_of_lt_of_le hlt hhydrated.grows.size_le, hunchanged.clean, hid⟩
  have harrived := arrived hlevel hready hhydrated hcached
  have hprogress := harrived.progress children hchildren
  have hnext : (w.callFor store foreign owners name).ids.filterMap (fun id => found.lookup id) = _ :=
    harrived.next
  rw [hnext] at hend
  generalize w₁.cacheFound (w.callFor store foreign owners name) found = w₂
    at hend harrived hprogress
  rcases hend with ⟨hempty, rfl, rfl⟩ | ⟨branches, hstart, rfl⟩
  . rw [hempty, stageFor_nil] at hprogress
    refine ⟨hprogress, .finished htype harrived.linked ?_ (.done t owners)⟩
    rw [hempty]
    exact .nobody foreign children
  . rw [(Branch.ofBranches_eq a branches).2.2] at hhealthy
    have hready' := hprogress.ready [] (by rw [List.append_nil]; exact hready)
    rw [List.append_nil] at hready'
    have hbelow := hstarts (hprogress.serves hserves) harrived.linked.nextLevel hready' hstart
      hhealthy
    have hlevel' : w₂.Level store t owners := hprogress.grows.level hlevel
    have hgrows : Grows w₂ w' := hbelow.progress.grows
    refine ⟨?_, .ofBranches htype (hgrows.linked hlevel' harrived.linked) ?_⟩
    . rw [stageOf_ofBranches]
      exact hprogress.trans hbelow.progress
    . rw [hgrows.nextLevel hlevel']
      exact hbelow.waits

/-- The first step of one branch. -/
theorem startBranch_advances (hbelow : ArrivesWell a store below) (hserves : w.Serves a store)
    (hlevel : w.Level store t owners) (hready : w.Ready (childLinks owners [(name, below)]))
    (h : w.startBranch store t owners name below = (.ok branch, w'))
    (hhealthy : branch.healthy = true)
    : Advances a store t owners [(name, below)] (w.stageFor a store t owners [(name, below)]) w'
        [branch] := by
  rw [childLinks_singleton] at hready
  unfold startBranch at h
  cases hcall : w.branchCall store t owners name with
  | error err =>
    rw [hcall] at h
    cases h
  | ok call =>
    obtain ⟨foreign, htype, rfl⟩ := hlevel.branchCall_eq_ok hcall
    rw [hcall] at h
    dsimp only at h
    have hstage : w.stageFor a store t owners [(name, below)]
        = ⟨w, owners.map fun e => (e, name),
            (if (w.foreignIdsOf owners name).isEmpty then []
              else [.getAll foreign.name (w.foreignIdsOf owners name)])
              ++ below.calls a store foreign
                ((w.foreignIdsOf owners name).filterMap (a.object? store foreign))⟩ := by
      unfold stageFor
      rw [PreloadTree.childCalls_cons _ htype, PreloadTree.childCalls, List.append_nil,
        childLinks_singleton]
      rfl
    have hids : (w.callFor store foreign owners name).ids = w.foreignIdsOf owners name := rfl
    rw [hids] at h
    rw [hstage]
    split at h
    . next hempty =>
      rw [if_pos hempty, List.nil_append]
      exact hbelow hserves hlevel hready htype h hhealthy
    . next hsome =>
      rw [if_neg hsome]
      have hsent := w.send_progress store.adapter (owners.map fun e => (e, name))
        (.getAll foreign.name (w.foreignIdsOf owners name))
        (below.calls a store foreign
          ((w.foreignIdsOf owners name).filterMap (a.object? store foreign)))
      have hcallee : (w.callFor store foreign owners name).foreignType = foreign := rfl
      rw [hcallee] at h
      cases hsend : w.send store.adapter (.getAll foreign.name (w.foreignIdsOf owners name)) with
        | mk arrival w₁ =>
      rw [hsend] at h hsent
      have hgrows : Grows w w₁ := hsent.grows
      rw [← hgrows.callFor hlevel] at h
      cases arrival with
      | none =>
        have hready' := hsent.ready [] (by rw [List.append_nil]; exact hready)
        rw [List.append_nil] at hready'
        have harrived := hbelow (hsent.serves hserves) (hgrows.level hlevel) hready' htype h hhealthy
        rw [hgrows.foreignIdsOf hlevel] at harrived
        exact ⟨hsent.trans harrived.progress, harrived.waits⟩
      | some deadline =>
        cases h
        refine ⟨?_, .calling deadline htype (.done t owners)⟩
        rw [hgrows.callFor hlevel, stageOf_calling]
        exact hsent

theorem stageFor_cons (a : Adapter) (store : Store) (t : ObjectType) (owners : List EntityRef)
    (child : String × PreloadTree) (rest : List (String × PreloadTree)) (w : World)
    : w.stageFor a store t owners (child :: rest)
        =
      (w.stageFor a store t owners [child]).beside (childLinks owners rest)
        (PreloadTree.childCalls a store t (owners.map w.content) rest) := by
  obtain ⟨name, below⟩ := child
  unfold stageFor Stage.beside
  rw [childLinks_cons, PreloadTree.childCalls, PreloadTree.childCalls, PreloadTree.childCalls,
    List.append_nil]

theorem startsWell_nil (a : Adapter) (store : Store) : StartsWell a store [] := by
  intro w w' t owners reporting branches _ _ _ h _
  rw [startBranches] at h
  cases h
  exact ⟨.refl _ _, .done t owners⟩

/-- Where no error is held back, the first relationship and the others have begun without one. -/
theorem startBranches_cons_eq_ok
    (h : w.startBranches store t owners reporting ((name, below) :: rest) = (.ok branches, w'))
    (hhealthy : Branch.allHealthy branches = true)
    : ∃ branch branches' w₁ reporting', w.startBranch store t owners name below = (.ok branch, w₁)
        ∧
      w₁.startBranches store t owners reporting' rest = (.ok branches', w')
        ∧
      branch.healthy = true
        ∧
      Branch.allHealthy branches' = true
        ∧
      branches = branch :: branches' := by
  rw [startBranches_cons] at h
  cases hfirst : w.startBranch store t owners name below with | mk first w₁ =>
  rw [hfirst] at h
  dsimp only at h
  cases hhold : reporting.hold first with
  | error err =>
    rw [hhold] at h
    cases h
  | ok branch =>
    rw [hhold] at h
    dsimp only at h
    cases hothers : w₁.startBranches store t owners (reporting.next branch) rest with
      | mk others w₂ =>
    rw [hothers] at h
    cases others with
    | error err => cases h
    | ok branches' =>
      cases h
      rw [Branch.allHealthy, Bool.and_eq_true] at hhealthy
      rw [Reporting.eq_ok_of_healthy hhold hhealthy.1]
      exact ⟨branch, branches', w₁, reporting.next branch, rfl, hothers, hhealthy.1, hhealthy.2, rfl⟩

theorem startsWell_cons (hbelow : ArrivesWell a store below) (hrest : StartsWell a store rest)
    : StartsWell a store ((name, below) :: rest) := by
  intro w w' t owners reporting branches hserves hlevel hready h hhealthy
  obtain ⟨branch, branches', w₁, reporting', hfirst, hothers, hbranch, hbranches, rfl⟩ :=
    startBranches_cons_eq_ok h hhealthy
  rw [childLinks_cons] at hready
  have hone := startBranch_advances hbelow hserves hlevel hready.left hfirst hbranch
  have hgrows : Grows w w₁ := hone.progress.grows
  have hall := hone.cons (hrest (hone.progress.serves hserves) (hgrows.level hlevel)
    (hone.progress.ready _ hready).right hothers hbranches) rfl (hgrows.level hlevel)
  rw [stageFor_cons, ← hgrows.map_content hlevel]
  exact hall

mutual

/-- The answers of all levels are taken in. -/
theorem arrivesWell (a : Adapter) (store : Store) (tree : PreloadTree) (h : tree.WellFormed)
    : ArrivesWell a store tree := by
  cases tree with
  | node children =>
    obtain ⟨hascending, hbelow⟩ := h
    exact arrivesWell_node hascending (startsWell a store children hbelow)

theorem startsWell (a : Adapter) (store : Store) (children : List (String × PreloadTree))
    (h : ∀ name below, (name, below) ∈ children → below.WellFormed)
    : StartsWell a store children := by
  cases children with
  | nil => exact startsWell_nil a store
  | cons child rest =>
    obtain ⟨name, below⟩ := child
    apply startsWell_cons
    . exact arrivesWell a store below (h name below List.mem_cons_self)
    . apply startsWell a store rest
      intro name' below' hmem
      exact h name' below' (List.mem_cons_of_mem _ hmem)

end

theorem pollBranch_descending_eq_ok
    (h : w.pollBranch (.descending branches) = (.ok branch, w'))
    : ∃ branches', w.pollBranches (.ofSize branches.length) branches = (.ok branches', w')
        ∧
      branch = .ofBranches branches' := by
  rw [pollBranch] at h
  cases hpoll : w.pollBranches (.ofSize branches.length) branches with | mk results w₁ =>
  rw [hpoll] at h
  cases results with
  | error err => cases h
  | ok branches' =>
    cases h
    exact ⟨branches', rfl, rfl⟩

/-- Where no error is held back, the first branch and the others have gone on without one. -/
theorem pollBranches_cons_eq_ok {branches' : List Branch}
    (h : w.pollBranches reporting (branch :: branches) = (.ok branches', w'))
    (hhealthy : Branch.allHealthy branches' = true)
    : ∃ b bs w₁ reporting', w.pollBranch branch = (.ok b, w₁)
        ∧
      w₁.pollBranches reporting' branches = (.ok bs, w')
        ∧
      b.healthy = true
        ∧
      Branch.allHealthy bs = true
        ∧
      branches' = b :: bs := by
  rw [pollBranches] at h
  cases hfirst : w.pollBranch branch with | mk first w₁ =>
  rw [hfirst] at h
  dsimp only at h
  cases hhold : reporting.hold first with
  | error err =>
    rw [hhold] at h
    cases h
  | ok b =>
    rw [hhold] at h
    dsimp only at h
    cases hothers : w₁.pollBranches (reporting.next b) branches with | mk others w₂ =>
    rw [hothers] at h
    cases others with
    | error err => cases h
    | ok bs =>
      cases h
      rw [Branch.allHealthy, Bool.and_eq_true] at hhealthy
      rw [Reporting.eq_ok_of_healthy hhold hhealthy.1]
      exact ⟨b, bs, w₁, reporting.next b, rfl, hothers, hhealthy.1, hhealthy.2, rfl⟩

mutual

/-- A branch that is polled takes in what has arrived. -/
theorem pollBranch_advances {w w' : World} {t : ObjectType} {owners : List EntityRef}
    {name : String} {below : PreloadTree} {branch' : Branch} (branch : Branch)
    (hserves : w.Serves a store) (hlevel : w.Level store t owners) (htree : below.WellFormed)
    (hwaits : Waits a store w t owners [(name, below)] [branch]) (hready : w.Ready branch.links)
    (h : w.pollBranch branch = (.ok branch', w')) (hhealthy : branch'.healthy = true)
    : Advances a store t owners [(name, below)] (stageOf a w [branch]) w' [branch'] := by
  cases branch with
  | calling call deadline below =>
    rw [pollBranch] at h
    split at h
    . cases hwaits with
      | calling _ htype _ =>
        rw [stageOf_calling]
        apply arrivesWell a store below htree hserves hlevel _ htype h hhealthy
        rw [Branch.links, links_callFor] at hready
        exact hready
    . cases h
      exact ⟨.refl _ _, hwaits⟩
  | descending branches =>
    obtain ⟨branches', hpoll, rfl⟩ := pollBranch_descending_eq_ok h
    rw [(Branch.ofBranches_eq a branches').2.2] at hhealthy
    cases hwaits with
    | descending htype hlinked hnext _ =>
      obtain ⟨_, hbelow⟩ := htree
      have hpolled := pollBranches_advances branches hserves hlinked.nextLevel hbelow hnext
        hready hpoll hhealthy
      have hgrows : Grows w w' := hpolled.progress.grows
      refine ⟨?_, .ofBranches htype (hgrows.linked hlevel hlinked) ?_⟩
      . rw [stageOf_ofBranches, stageOf_descending]
        exact hpolled.progress
      . rw [hgrows.nextLevel hlevel]
        exact hpolled.waits
  | finished =>
    rw [pollBranch] at h
    cases h
    exact ⟨.refl _ _, hwaits⟩
  | failed err =>
    rw [pollBranch] at h
    cases h

theorem pollBranches_advances {w w' : World} {t : ObjectType} {owners : List EntityRef}
    {children : List (String × PreloadTree)} {reporting : Reporting} {branches' : List Branch}
    (branches : List Branch) (hserves : w.Serves a store) (hlevel : w.Level store t owners)
    (htree : ∀ name below, (name, below) ∈ children → below.WellFormed)
    (hwaits : Waits a store w t owners children branches)
    (hready : w.Ready (Branch.allLinks branches))
    (h : w.pollBranches reporting branches = (.ok branches', w'))
    (hhealthy : Branch.allHealthy branches' = true)
    : Advances a store t owners children (stageOf a w branches) w' branches' := by
  cases branches with
  | nil =>
    rw [pollBranches] at h
    cases h
    exact ⟨.refl _ _, hwaits⟩
  | cons b bs =>
    obtain ⟨b', bs', w₁, reporting', hfirst, hothers, hb, hbs, rfl⟩ :=
      pollBranches_cons_eq_ok h hhealthy
    rw [Branch.allLinks] at hready
    cases children with
    | nil => cases hwaits
    | cons child rest =>
      obtain ⟨name, below⟩ := child
      obtain ⟨hwaits₁, hwaits₂⟩ := hwaits.uncons
      have hone := pollBranch_advances b hserves hlevel (htree name below List.mem_cons_self)
        hwaits₁ hready.left hfirst hb
      have hgrows : Grows w w₁ := hone.progress.grows
      have hready₁ := hone.progress.ready (Branch.allLinks bs)
        (by rw [stageOf, Branch.allLinks_singleton]; exact hready)
      have htree' : ∀ name below, (name, below) ∈ rest → below.WellFormed :=
        fun name below hmem => htree name below (List.mem_cons_of_mem _ hmem)
      have hall := hone.cons (pollBranches_advances bs (hone.progress.serves hserves)
        (hgrows.level hlevel) htree' (hwaits₂.grows hlevel hgrows) hready₁.right hothers hbs) rfl
        (hgrows.level hlevel)
      rw [stageOf_cons]
      exact hall

end

end ObjectStore.World
