import ObjectStore.Proofs.World.PreloadSteps

/-!
This module follows a query whose relationships are to be followed from its start to its end. If it does
not fail, the relationships of its results are followed down the tree, and the calls are those that the
stored records determine.
-/

namespace ObjectStore

/-- The same query, with no relationships to follow. -/
def Query.plain (q : Query) : Query :=
  { q with preload := .empty }

/-- The objects that a query finds. -/
def Adapter.Finds (a : Adapter) (q : Query) (xs : List Entity) : Prop :=
  ∃ rs, a.query q = .ok rs ∧ rs.map (Entity.ofRecord? q.store q.objectType) = xs.map some

theorem Adapter.Finds.exists_record {a : Adapter} {q : Query} {xs : List Entity} {x : Entity}
    (h : a.Finds q xs) (hx : x ∈ xs) : ∃ r, Entity.ofRecord? q.store q.objectType r = some x := by
  obtain ⟨rs, _, hread⟩ := h
  obtain ⟨r, _, hr⟩ := List.mem_map.1 (hread ▸ List.mem_map_of_mem hx : some x ∈ rs.map _)
  exact ⟨r, hr⟩

theorem Adapter.Finds.offline_eq_false {a : Adapter} {q : Query} {xs : List Entity}
    (h : a.Finds q xs) : a.offline = false := by
  obtain ⟨rs, hquery, _⟩ := h
  unfold Adapter.query Adapter.checkOnline at hquery
  cases honline : a.offline with
  | false => rfl
  | true =>
    rw [honline] at hquery
    cases hquery

namespace World

variable {w w' w₀ : World} {store : Store} {t : ObjectType} {a : Adapter} {ref : AdapterRef}
  {owners : List EntityRef} {children : List (String × PreloadTree)} {q : Query} {xs : List Entity}
  {s s' : Stage} {reporting : Reporting}

mutual

/-- An error that waits to be reported does not go away. -/
theorem healthy_of_pollBranch {w w' : World} {branch' : Branch} (branch : Branch)
    (h : w.pollBranch branch = (.ok branch', w')) (hhealthy : branch'.healthy = true)
    : branch.healthy = true := by
  cases branch with
  | calling call deadline below => rw [Branch.healthy]
  | descending branches =>
    obtain ⟨branches', hpoll, rfl⟩ := pollBranch_descending_eq_ok h
    rw [(Branch.ofBranches_eq .empty branches').2.2] at hhealthy
    rw [Branch.healthy]
    exact allHealthy_of_pollBranches branches hpoll hhealthy
  | finished => rw [Branch.healthy]
  | failed err =>
    rw [pollBranch] at h
    cases h

theorem allHealthy_of_pollBranches {w w' : World} {reporting : Reporting} {branches' : List Branch}
    (branches : List Branch) (h : w.pollBranches reporting branches = (.ok branches', w'))
    (hhealthy : Branch.allHealthy branches' = true) : Branch.allHealthy branches = true := by
  cases branches with
  | nil => rw [Branch.allHealthy]
  | cons b bs =>
    obtain ⟨b', bs', w₁, reporting', hfirst, hothers, hb, hbs, rfl⟩ :=
      pollBranches_cons_eq_ok h hhealthy
    rw [Branch.allHealthy, Bool.and_eq_true]
    exact ⟨healthy_of_pollBranch b hfirst hb, allHealthy_of_pollBranches bs hothers hbs⟩

end

theorem warnOf_aside (w : World) (q : Query)
    : (w.warnOf q).entities = w.entities ∧ (w.warnOf q).adapters = w.adapters := by
  unfold warnOf
  split <;> exact ⟨rfl, rfl⟩

/-- The entities that are made of some objects when they come into a world. -/
def newRefs (w : World) (xs : List Entity) : List EntityRef :=
  List.range' w.entities.size xs.length

/-- The results of the query are there, and their relationships are being followed. -/
structure Following (w₀ : World) (q : Query) (xs : List Entity) (s : Stage) : Prop where
  finds : (w₀.adapter q.store.adapter).Finds q xs
  progress : Progress q.store.adapter
    ⟨w₀.arrival (.fetch q false) w₀.clock, [],
      q.preload.calls (w₀.adapter q.store.adapter) q.store q.objectType xs⟩ s
  level : s.world.Level q.store q.objectType (w₀.newRefs xs)
  content : (w₀.newRefs xs).map s.world.content = xs

theorem Following.next (h : Following w₀ q xs s) (hprogress : Progress q.store.adapter s s')
    : Following w₀ q xs s' where
  finds := h.finds
  progress := h.progress.trans hprogress
  level := hprogress.grows.level h.level
  content := by rw [hprogress.grows.map_content h.level, h.content]

theorem serves_arrival (hadapter : q.store.adapter < w₀.adapters.size) (clock : Nat)
    : (w₀.arrival (.fetch q false) clock).Serves (w₀.adapter q.store.adapter) q.store where
  lt := by
    unfold arrival modifyAdapter
    rw [Array.size_modify]
    exact hadapter
  adapter := w₀.adapter_arrival (.fetch q false) clock q.store.adapter

theorem Following.serves (h : Following w₀ q xs s) (hadapter : q.store.adapter < w₀.adapters.size)
    : s.world.Serves (w₀.adapter q.store.adapter) q.store :=
  h.progress.serves (serves_arrival hadapter w₀.clock)

theorem Following.ready (h : Following w₀ q xs s) : s.world.Ready s.links :=
  (h.progress.ready [] ⟨.nil, nofun, nofun⟩).left

theorem query_arrival (w₀ : World) (q : Query) (clock : Nat)
    : ((w₀.arrival (.fetch q false) clock).adapter q.store.adapter).query q
        =
      (w₀.adapter q.store.adapter).query q := by
  obtain ⟨log, hlog⟩ := w₀.adapter_arrival (.fetch q false) clock q.store.adapter
  rw [hlog]
  rfl

/-- The world in which the results are there. -/
def hydrated (w₀ : World) (q : Query) (xs : List Entity) (clock : Nat) : World :=
  ((w₀.arrival (.fetch q false) clock).warnOf q).addAll xs

theorem map_entity_hydrated (w₀ : World) (q : Query) (xs : List Entity) (clock : Nat)
    : (w₀.newRefs xs).map (w₀.hydrated q xs clock).entity = xs := by
  have hread := ((w₀.arrival (.fetch q false) clock).warnOf q).map_entity_addAll xs
  rw [((w₀.arrival (.fetch q false) clock).warnOf_aside q).1] at hread
  exact hread

theorem size_hydrated (w₀ : World) (q : Query) (xs : List Entity) (clock : Nat)
    : (w₀.hydrated q xs clock).entities.size = w₀.entities.size + xs.length := by
  unfold hydrated
  rw [size_addAll, ((w₀.arrival (.fetch q false) clock).warnOf_aside q).1]
  rfl

theorem arrive_fetch (hfinds : (w₀.adapter q.store.adapter).Finds q xs) (clock : Nat)
    : (w₀.arrival (.fetch q false) clock).arrive (.fetch q false)
        =
      (w₀.hydrated q xs clock).startPreload q (w₀.newRefs xs) false := by
  obtain ⟨rs, hquery, hread⟩ := hfinds
  have hrefs : ((List.range' ((w₀.arrival (.fetch q false) clock).warnOf q).entities.size
      xs.length).map some).filterMap id = w₀.newRefs xs := by
    rw [List.filterMap_map, ((w₀.arrival (.fetch q false) clock).warnOf_aside q).1]
    exact List.filterMap_some
  unfold arrive
  dsimp only
  rw [query_arrival, hquery]
  dsimp only
  rw [hydrateAll_of_ofRecord? hread]
  dsimp only
  rw [hrefs]
  rfl

/-- The answer to a query is an error, or its results become new entities. -/
theorem arrive_fetch_cases (w₀ : World) (q : Query) (clock : Nat)
    : (∃ err w', (w₀.arrival (.fetch q false) clock).arrive (.fetch q false)
          = (.finished (.error err), w'))
        ∨
      ∃ xs, (w₀.adapter q.store.adapter).Finds q xs := by
  unfold arrive
  dsimp only
  rw [query_arrival]
  cases hquery : (w₀.adapter q.store.adapter).query q with
  | error err => exact .inl ⟨_, _, rfl⟩
  | ok rs =>
    dsimp only
    cases hresults : ((w₀.arrival (.fetch q false) clock).warnOf q).hydrateAll q.store q.objectType
      (rs.map some) with | mk result w₁ =>
    cases result with
    | error err => exact .inl ⟨_, _, rfl⟩
    | ok slots =>
      obtain ⟨xs, hxs⟩ := hydrateAll_eq_ok hresults
      exact .inr ⟨xs, rs, hquery, hxs⟩

/-- The relationships of the results are to be followed, and nothing else was done so far. -/
theorem following_hydrated (hfinds : (w₀.adapter q.store.adapter).Finds q xs)
    (hchildren : Ascending q.preload.children) (clock : Nat)
    : Following w₀ q xs
        ((w₀.hydrated q xs clock).stageFor (w₀.adapter q.store.adapter) q.store q.objectType
          (w₀.newRefs xs) q.preload.children) := by
  have hempty : ∀ x ∈ xs, x.links = .empty := by
    intro x hx
    obtain ⟨r, hr⟩ := hfinds.exists_record hx
    exact Entity.links_of_ofRecord? hr
  have hread := w₀.map_entity_hydrated q xs clock
  have hcontent : ∀ e ∈ w₀.newRefs xs,
      (w₀.hydrated q xs clock).content e = (w₀.hydrated q xs clock).entity e := by
    intro e he
    have hmem := List.mem_map_of_mem (f := (w₀.hydrated q xs clock).entity) he
    rw [hread] at hmem
    exact Entity.unlinked_of_links_eq_empty (hempty _ hmem)
  have hmap : (w₀.newRefs xs).map (w₀.hydrated q xs clock).content = xs := by
    rw [List.map_congr_left hcontent, hread]
  refine ⟨hfinds, ?_, ?_, hmap⟩
  . obtain ⟨hentities, hadapters⟩ := (w₀.arrival (.fetch q false) clock).warnOf_aside q
    have hadded := ((w₀.arrival (.fetch q false) clock).warnOf q).addAll_progress hchildren hempty
      q.store.adapter [] (q.preload.calls (w₀.adapter q.store.adapter) q.store q.objectType xs)
    rw [hentities, List.append_nil] at hadded
    unfold stageFor
    rw [hmap, ← PreloadTree.calls_eq_childCalls]
    exact ((progress_clock (w₀.arrival (.fetch q false) w₀.clock) clock _ [] _).trans
      (progress_aside hentities hadapters _ [] _)).trans hadded
  . intro e he
    constructor
    . change e < (w₀.hydrated q xs clock).entities.size
      rw [size_hydrated]
      exact (List.mem_range'_1.1 he).2
    . have hmem := List.mem_map_of_mem (f := (w₀.hydrated q xs clock).content) he
      rw [hmap] at hmem
      obtain ⟨r, hr⟩ := hfinds.exists_record hmem
      exact Entity.unchanged_of_ofRecord? hr

/-- The way of a query through the world, as long as nothing else happens. -/
inductive Fetching (w₀ : World) (q : Query) : World → Task → Prop where
  | asked (clock deadline : Nat)
      : Fetching w₀ q (w₀.arrival (.fetch q false) clock) (.calling (.fetch q false) deadline)
  | preloading {w : World} {xs : List Entity} {branches : List Branch}
      (following : Branch.allHealthy branches = true →
        Following w₀ q xs (stageOf (w₀.adapter q.store.adapter) w branches)
          ∧
        Waits (w₀.adapter q.store.adapter) q.store w q.objectType (w₀.newRefs xs)
          q.preload.children branches)
      : Fetching w₀ q w (.preloading (w₀.newRefs xs) branches false)
  | found {w : World} {xs : List Entity} (followed : Following w₀ q xs ⟨w, [], []⟩)
      (loaded : Loaded (w₀.adapter q.store.adapter) q.store w q.objectType (w₀.newRefs xs)
        q.preload.children)
      : Fetching w₀ q w (.finished (.ok (.entities (w₀.newRefs xs))))
  | failed {w : World} (err : StoreError) : Fetching w₀ q w (.finished (.error err))

/-- The task for branches that are left. -/
theorem fetching_of_branches {branches : List Branch}
    (h : Branch.allHealthy branches = true →
      Following w₀ q xs (stageOf (w₀.adapter q.store.adapter) w branches)
        ∧
      Waits (w₀.adapter q.store.adapter) q.store w q.objectType (w₀.newRefs xs)
        q.preload.children branches)
    {out : Task × World} (hout : out
      = if branches.all Branch.isFinished then (.found (w₀.newRefs xs) false, w)
        else (.preloading (w₀.newRefs xs) branches false, w))
    : Fetching w₀ q out.2 out.1 := by
  rw [hout]
  split
  . next hfinished =>
    obtain ⟨hlinks, hdue, hhealthy⟩ :=
      Branch.settled_of_all_isFinished (w₀.adapter q.store.adapter) hfinished
    obtain ⟨hfollowing, hwaits⟩ := h hhealthy
    unfold stageOf at hfollowing
    rw [hlinks, hdue] at hfollowing
    exact .found hfollowing (hwaits.loaded hfinished)
  . exact .preloading h

theorem Following.startPreload (hadapter : q.store.adapter < w₀.adapters.size)
    (htree : q.preload.WellFormed)
    (h : Following w₀ q xs (w.stageFor (w₀.adapter q.store.adapter) q.store q.objectType
      (w₀.newRefs xs) q.preload.children))
    : Fetching w₀ q (w.startPreload q (w₀.newRefs xs) false).2
        (w.startPreload q (w₀.newRefs xs) false).1 := by
  unfold World.startPreload
  split
  . next hempty =>
    rw [List.isEmpty_iff] at hempty
    rw [hempty, stageFor_nil] at h
    refine .found h ?_
    rw [hempty]
    exact .nobody q.objectType q.preload.children
  . dsimp only
    cases hstart : w.startBranches q.store q.objectType (w₀.newRefs xs)
      (.ofSize q.preload.children.length) q.preload.children with | mk results w' =>
    cases results with
    | error err => exact .failed err
    | ok branches =>
      refine fetching_of_branches ?_ rfl
      intro hhealthy
      have hstarted := startsWell (w₀.adapter q.store.adapter) q.store q.preload.children
        htree.children.2 (h.serves hadapter) h.level h.ready hstart hhealthy
      exact ⟨h.next hstarted.progress, hstarted.waits⟩

theorem Fetching.arrive (hadapter : q.store.adapter < w₀.adapters.size)
    (htree : q.preload.WellFormed) (clock : Nat)
    : Fetching w₀ q ((w₀.arrival (.fetch q false) clock).arrive (.fetch q false)).2
        ((w₀.arrival (.fetch q false) clock).arrive (.fetch q false)).1 := by
  rcases w₀.arrive_fetch_cases q clock with ⟨err, w', herror⟩ | ⟨xs, hfinds⟩
  . rw [herror]
    exact .failed err
  . rw [arrive_fetch hfinds]
    exact (following_hydrated hfinds htree.children.1 clock).startPreload hadapter htree

theorem Fetching.poll (hadapter : q.store.adapter < w₀.adapters.size)
    (htree : q.preload.WellFormed) {task : Task} (h : Fetching w₀ q w task)
    : Fetching w₀ q (w.poll task).2 (w.poll task).1 := by
  cases h with
  | asked clock deadline =>
    by_cases hdue : deadline ≤ clock
    . rw [poll_calling_of_due hdue]
      exact arrive hadapter htree clock
    . rw [poll_calling_of_not_due hdue]
      exact .asked clock deadline
  | @preloading _ xs branches h =>
    unfold World.poll
    dsimp only
    cases hpoll : w.pollBranches (.ofSize branches.length) branches with | mk results w' =>
    cases results with
    | error err => exact .failed err
    | ok branches' =>
      refine fetching_of_branches ?_ rfl
      intro hhealthy
      obtain ⟨hfollowing, hwaits⟩ := h (allHealthy_of_pollBranches branches hpoll hhealthy)
      have hpolled := pollBranches_advances branches (hfollowing.serves hadapter) hfollowing.level
        htree.children.2 hwaits hfollowing.ready hpoll hhealthy
      exact ⟨hfollowing.next hpolled.progress, hpolled.waits⟩
  | found h hloaded => exact .found h hloaded
  | failed err => exact .failed err

theorem Fetching.clock {task : Task} (h : Fetching w₀ q w task) (clock : Nat)
    : Fetching w₀ q { w with clock } task := by
  cases h with
  | asked _ deadline => exact .asked clock deadline
  | preloading h =>
    refine .preloading ?_
    intro hhealthy
    obtain ⟨hfollowing, hwaits⟩ := h hhealthy
    exact ⟨hfollowing.next (progress_clock w clock _ _ _),
      hwaits.grows hfollowing.level (grows_of_entities_eq rfl)⟩
  | found hfollowed hloaded =>
    exact .found (hfollowed.next (progress_clock w clock _ _ _))
      (hloaded.grows hfollowed.level (grows_of_entities_eq rfl))
  | failed err => exact .failed err

theorem fetching_perform (hadapter : q.store.adapter < w₀.adapters.size)
    (htree : q.preload.WellFormed)
    : Fetching w₀ q (w₀.perform (.fetch q)).2 (w₀.perform (.fetch q)).1 := by
  unfold perform
  apply run_induction
  . exact fun w task h => h.poll hadapter htree
  . exact fun w task clock h => h.clock clock
  . rcases w₀.call_cases (.fetch q false) with ⟨deadline, hcall⟩ | hcall
    . unfold start
      dsimp only
      rw [hcall]
      exact .asked w₀.clock deadline
    . unfold start
      dsimp only
      rw [hcall]
      exact Fetching.arrive hadapter htree w₀.clock

end World

end ObjectStore
