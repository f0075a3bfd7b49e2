import ObjectStore.Proofs.Entity.WellTyped
import ObjectStore.Proofs.World.Tasks

/-!
This module contains well-typed worlds: the entities are, and what is under way only leads to entities
that are. It proves that no task makes a world ill-typed, whatever records it reads.
-/

namespace ObjectStore

structure Load.Typed (load : Load) : Prop where
  schema : load.store.schema.Typed
  foreignType : load.foreignType.Typed

structure BranchCall.Typed (call : BranchCall) : Prop where
  schema : call.store.schema.Typed
  foreignType : call.foreignType.Typed

structure Query.Typed (q : Query) : Prop where
  schema : q.store.schema.Typed
  objectType : q.objectType.Typed

def Job.Typed : Job → Prop
  | get store objectType _ | getAll store objectType _ => store.schema.Typed ∧ objectType.Typed
  | fetch q _ => q.Typed
  | _ => True

def Task.Typed : Task → Prop
  | calling job _ => job.Typed
  | preloading _ branches _ => ∀ call ∈ Branch.allCalls branches, call.Typed
  | _ => True

def Request.Typed : Request → Prop
  | get store .. | getAll store .. => store.schema.Typed
  | fetch q | first q | fetchWithDisplay q _ => q.Typed
  | _ => True

theorem Task.typed_answered {α : Type} (f : α → Outcome) (result : Except AdapterError α)
    : (answered f result).Typed := by
  cases result <;> trivial

theorem Query.Typed.withDisplay {q q' : Query} (hq : q.Typed) {formats : Option (List DisplayFormat)}
    (h : q.withDisplay formats = .ok q') : q'.Typed := by
  unfold Query.withDisplay following at h
  obtain ⟨preload, _, h⟩ := bind_eq_ok.1 h
  cases h
  exact ⟨hq.schema, hq.objectType⟩

theorem Entity.Typed.noted {e : Entity} (h : e.Typed) (op : WriteOp) : (Dispatch.noted e op).Typed := by
  cases op <;> exact h.of_same ⟨rfl, rfl, rfl⟩ rfl

namespace World

structure Typed (w : World) : Prop where
  entities : ∀ e, (w.entity e).Typed
  loads : ∀ l load, w.load? l = some load → load.Typed

variable {w w' : World} {e : EntityRef} {l : LoadRef} {load : Load} {store : Store} {x : Entity}
  {objectType : ObjectType} {t : Task} {job : Job} {request : Request} {q : Query}

theorem typed_of_empty (hentities : w.entities = #[]) (hloads : w.loads = #[]) : w.Typed := by
  constructor
  . intro e
    unfold entity
    rw [hentities]
    exact Entity.typed_default
  . intro l load hload
    unfold load? at hload
    rw [hloads] at hload
    cases hload

theorem Typed.aside (h : w.Typed) (hentities : w'.entities = w.entities)
    (hloads : w'.loads = w.loads) : w'.Typed := by
  constructor
  . intro e
    unfold entity
    rw [hentities]
    exact h.entities e
  . intro l load hload
    unfold load? at hload
    rw [hloads] at hload
    exact h.loads l load hload

theorem Typed.addEntity (h : w.Typed) (hx : x.Typed) : (w.addEntity x).2.Typed := by
  refine ⟨?_, h.loads⟩
  intro e
  rcases Nat.lt_trichotomy e w.entities.size with he | rfl | he
  . rw [entity_addEntity_of_lt he]
    exact h.entities e
  . rw [entity_addEntity_self]
    exact hx
  . have hnone : (w.addEntity x).2.entity e = default := by
      unfold entity
      rw [Array.getD_eq_getD_getElem?, Array.getElem?_eq_none, Option.getD_none]
      rw [size_addEntity]
      exact he
    rw [hnone]
    exact Entity.typed_default

theorem Typed.modifyEntity (h : w.Typed) {f : Entity → Entity} (hf : (f (w.entity e)).Typed)
    : (w.modifyEntity e f).Typed := by
  by_cases he : w.entities.size ≤ e
  . rw [modifyEntity_of_le he]
    exact h
  rw [Nat.not_le] at he
  refine ⟨?_, h.loads⟩
  intro e'
  rw [w.entity_modifyEntity e e' f he]
  split
  . exact hf
  . exact h.entities e'

theorem Typed.tryModify (h : w.Typed) {f : Entity → Except StoreError Entity}
    (hf : ∀ x, f (w.entity e) = .ok x → x.Typed) : (w.tryModify e f).2.Typed := by
  unfold World.tryModify
  split
  . next x hx => exact h.modifyEntity (hf x hx)
  . exact h

theorem Typed.create (h : w.Typed) (hstore : store.schema.Typed) (typeName : String)
    : (w.create store typeName).2.Typed := by
  unfold World.create
  split
  . exact h
  . next t ht =>
    have hfresh : w.takeFreshId.2.Typed := h.aside rfl rfl
    exact hfresh.addEntity (Entity.typed_create hstore (hstore.of_objectType ht) _)

theorem Typed.hydrate (h : w.Typed) (hstore : store.schema.Typed) (htype : objectType.Typed)
    (r : Record) : (w.hydrate store objectType r).2.Typed := by
  unfold World.hydrate
  split
  . exact h
  . next x hx => exact h.addEntity (Entity.typed_hydrate hstore htype hx)

theorem Typed.hydrate? (h : w.Typed) (hstore : store.schema.Typed) (htype : objectType.Typed)
    (r : Option Record) : (w.hydrate? store objectType r).2.Typed := by
  cases r with
  | none => exact h
  | some r =>
    have hhydrated := h.hydrate hstore htype r
    unfold World.hydrate?
    dsimp only
    split <;> next heq =>
      rw [heq] at hhydrated
      exact hhydrated

theorem Typed.hydrateAll (h : w.Typed) (hstore : store.schema.Typed) (htype : objectType.Typed)
    (rs : List (Option Record)) : (w.hydrateAll store objectType rs).2.Typed := by
  induction rs generalizing w with
  | nil => exact h
  | cons r rs ih =>
    have hfirst := h.hydrate? hstore htype r
    unfold World.hydrateAll
    split
    . next heq =>
      rw [heq] at hfirst
      exact hfirst
    . next heq =>
      rw [heq] at hfirst
      have hrest := ih hfirst
      split <;> next heq' =>
        rw [heq'] at hrest
        exact hrest

theorem Typed.build (h : w.Typed) (hstore : store.schema.Typed) (r : Record)
    : (w.build store r).2.Typed := by
  unfold World.build
  split
  . exact h
  . next t ht => exact h.hydrate hstore (hstore.of_objectType ht) r

theorem Typed.copyAs (h : w.Typed) (e : EntityRef) (typeName : Option String)
    : (w.copyAs e typeName).2.Typed := by
  have hsource := h.entities e
  unfold World.copyAs
  dsimp only
  split
  . exact h
  . next target htarget =>
    have htype : target.Typed := by
      cases typeName with
      | none =>
        cases htarget
        exact hsource.objectType
      | some typeName => exact hsource.schema.of_objectType htarget
    split
    . exact h
    . next copy hcopy =>
      have hnumbered : (if (w.entity e).persisted then w else w.takeFreshId.2).Typed := by
        split
        . exact h
        . exact h.aside rfl rfl
      exact hnumbered.addEntity (Entity.typed_copyAs hsource.schema htype hcopy)

theorem Typed.set (h : w.Typed) (e : EntityRef) (name : String) (v : Value)
    : (w.set e name v).2.Typed :=
  h.tryModify fun _ hx => (h.entities e).set hx

theorem Typed.setRelated (h : w.Typed) (e : EntityRef) (name : String) (target : Option EntityRef)
    : (w.setRelated e name target).2.Typed :=
  h.tryModify fun _ hx => (h.entities e).setRelated hx

theorem Typed.setRelatedId (h : w.Typed) (e : EntityRef) (name : String) (id : Option String)
    : (w.setRelatedId e name id).2.Typed :=
  h.tryModify fun _ hx => (h.entities e).setRelatedId hx

theorem Typed.hasMany (h : w.Typed) (e : EntityRef) (name : String) : (w.hasMany e name).2.Typed := by
  unfold World.hasMany
  split
  . exact h.modifyEntity ((h.entities e).of_same ⟨rfl, rfl, rfl⟩ rfl)
  . exact h

theorem Typed.reloadWith (h : w.Typed) (e : EntityRef) (r : Option Record)
    : (w.reloadWith e r).2.Typed := by
  cases r with
  | none => exact h
  | some r => exact h.tryModify fun _ hx => (h.entities e).rehydrate hx

/-! What is noted of a write touches no attribute. -/

theorem Typed.destroyLocally (h : w.Typed) (d : Dispatch) : (d.destroyLocally w).Typed := by
  unfold Dispatch.destroyLocally
  induction d.localDestroys generalizing w with
  | nil => exact h
  | cons e es ih => exact ih (h.modifyEntity ((h.entities e).of_same ⟨rfl, rfl, rfl⟩ rfl))

theorem Typed.settleEach (h : w.Typed) (results : List (Planned × Adapter.WriteResult))
    : (Dispatch.settleEach w results).2.Typed := by
  fun_induction Dispatch.settleEach w results with
  | case1 => exact h
  | case2 w p rest ih =>
    rw [Dispatch.succeed_eq] at ih ⊢
    exact ih (h.modifyEntity ((h.entities p.entity).noted p.op))
  | case3 w p error rest failures w' heq ih =>
    rw [heq] at ih
    exact ih h

theorem Typed.applyDispatch (h : w.Typed) (d : Dispatch) : (w.applyDispatch d).2.Typed := by
  have happlied : (w.modifyAdapter d.adapter fun _ =>
      ((w.adapter d.adapter).applyBatch d.ops).2).Typed := h.aside rfl rfl
  unfold World.applyDispatch Dispatch.settle
  dsimp only
  split
  . exact happlied
  . next results _ =>
    split
    . exact happlied
    . have heach := (happlied.destroyLocally d).settleEach (d.planned.zip results)
      split <;> exact heach

/-! Loads of related objects. -/

theorem Typed.recordResult (h : w.Typed) (hload : w.load? l = some load)
    (result : Except StoreError (Option EntityRef)) : (w.recordResult l result).Typed := by
  refine ⟨h.entities, ?_⟩
  intro l' load' hload'
  rw [load?_recordResult hload] at hload'
  split at hload'
  . cases hload'
    have htyped := h.loads l load hload
    exact ⟨htyped.schema, htyped.foreignType⟩
  . exact h.loads l' load' hload'

theorem Typed.settleLoad (h : w.Typed) (hload : w.load? l = some load)
    (result : Except StoreError (Option EntityRef)) : (w.settleLoad l result).Typed := by
  have hfinished : (w.modifyEntity load.owner fun x => x.finishLoad load.relation l result).Typed :=
    h.modifyEntity ((h.entities load.owner).finishLoad load.relation l result)
  rw [settleLoad_eq hload]
  exact hfinished.recordResult hload result

theorem Typed.pollLoad (h : w.Typed) (l : LoadRef) : (w.pollLoad l).Typed := by
  by_cases hdue : ∃ load, w.Due l load
  . obtain ⟨load, hdue⟩ := hdue
    have hload := hdue.1
    have htyped := h.loads l load hload
    rw [pollLoad_of_due hdue, arriveLoad_eq]
    have hfetched : (w.fetchLoad load).2.Typed := by
      unfold fetchLoad
      split
      . exact h
      . exact h.hydrate? htyped.schema htyped.foreignType _
    rw [← load?_fetchLoad w load l] at hload
    exact hfetched.settleLoad hload _
  . rw [pollLoad_of_not_due (not_exists.mp hdue)]
    exact h

theorem Typed.beginLoad (h : w.Typed) (hload : load.Typed) (e : EntityRef) (name : String)
    : (w.beginLoad e name load).Typed := by
  have hlinked : (w.modifyEntity e fun x => x.setLink name (.loading w.loads.size)).Typed :=
    h.modifyEntity ((h.entities e).of_same ⟨rfl, rfl, rfl⟩ rfl)
  refine ⟨hlinked.entities, ?_⟩
  intro l load' hload'
  obtain hload' | ⟨_, rfl⟩ := load?_beginLoad_cases hload'
  . exact h.loads l load' hload'
  . exact hload

theorem Typed.startLoad (h : w.Typed) (e : EntityRef) (name foreignType id : String)
    : (w.startLoad e name foreignType id).2.Typed := by
  have hschema := (h.entities e).schema
  cases htype : (w.entity e).store.objectType foreignType with
  | error err =>
    rw [startLoad_of_error htype]
    apply Typed.settleLoad _ (load?_beginLoad_self w e name _)
    exact h.beginLoad ⟨hschema, ObjectType.typed_ofName foreignType⟩ e name
  | ok objectType =>
    obtain ⟨deadline, hstarted⟩ := startLoad_of_ok name id htype
    rw [hstarted]
    apply Typed.pollLoad
    exact (h.beginLoad ⟨hschema, hschema.of_objectType htype⟩ e name).aside rfl rfl

theorem Typed.askRelated (h : w.Typed) (e : EntityRef) (name : String)
    : (w.askRelated e name).2.Typed := by
  unfold World.askRelated
  dsimp only
  split
  . exact h
  split
  . exact h
  . exact h
  split
  . exact h.modifyEntity ((h.entities e).of_same ⟨rfl, rfl, rfl⟩ rfl)
  . exact h.startLoad e name _ _

/-! Relationships that are followed ahead of time. -/

/-- What was followed has left a well-typed world, and only such calls are under way. -/
structure FollowsTyped {α : Type} (calls : α → List BranchCall) (out : Except StoreError α × World)
    : Prop where
  world : out.2.Typed
  calls : ∀ a, out.1 = .ok a → ∀ call ∈ calls a, call.Typed

theorem Typed.failed {α : Type} {calls : α → List BranchCall} (h : w.Typed) (err : StoreError)
    : FollowsTyped calls (.error err, w) :=
  ⟨h, nofun⟩

theorem FollowsTyped.cons {reporting : Reporting} {first : Except StoreError Branch × World}
    {branch : Branch} {results : Except StoreError (List Branch) × World}
    (hfirst : FollowsTyped Branch.calls first) (hhold : reporting.hold first.1 = .ok branch)
    (hrest : FollowsTyped Branch.allCalls results)
    : FollowsTyped Branch.allCalls (results.1.map (branch :: ·), results.2) := by
  refine ⟨hrest.world, ?_⟩
  intro branches hbranches call hmem
  obtain ⟨_ | rest, w'⟩ := results
  . cases hbranches
  . cases hbranches
    rw [Branch.allCalls, List.mem_append] at hmem
    rcases hmem with hmem | hmem
    . rcases Reporting.hold_eq_ok hhold with hresult | hnone
      . exact hfirst.calls branch hresult call hmem
      . rw [hnone] at hmem
        cases hmem
    . exact hrest.calls rest rfl call hmem

theorem typed_branchCall (hstore : store.schema.Typed) {owners : List EntityRef} {name : String}
    {call : BranchCall} (h : w.branchCall store objectType owners name = .ok call) : call.Typed := by
  unfold branchCall at h
  split at h
  . cases h
  . obtain ⟨foreignType, htype, h⟩ := bind_eq_ok.1 h
    cases h
    exact ⟨hstore, hstore.of_objectType htype⟩

theorem Typed.hydrateFound (h : w.Typed) {call : BranchCall} (hcall : call.Typed)
    (records : List (String × Option Record)) : (w.hydrateFound call records).2.Typed := by
  induction records generalizing w with
  | nil => exact h
  | cons head rest ih =>
    obtain ⟨id, _ | r⟩ := head
    . exact ih h
    . have hfirst := h.hydrate hcall.schema hcall.foreignType r
      unfold World.hydrateFound
      split
      . next heq =>
        rw [heq] at hfirst
        exact hfirst
      . next heq =>
        rw [heq] at hfirst
        have hrest := ih hfirst
        split <;> next heq' =>
          rw [heq'] at hrest
          exact hrest

theorem Typed.cacheFound (h : w.Typed) (call : BranchCall) (found : List (String × EntityRef))
    : (w.cacheFound call found).Typed := by
  unfold World.cacheFound
  induction call.owners generalizing w with
  | nil => exact h
  | cons p rest ih => exact ih (h.modifyEntity ((h.entities p.1).cachePreloaded _ _))

mutual

theorem Typed.arriveBranch {w : World} {call : BranchCall} (h : w.Typed) (hcall : call.Typed)
    (tree : PreloadTree) : FollowsTyped Branch.calls (w.arriveBranch call tree) := by
  cases tree with
  | node children =>
    rw [World.arriveBranch]
    split
    . exact h.failed _
    . next records _ =>
      have hhydrated := h.hydrateFound hcall (call.ids.zip records)
      split
      . next heq =>
        rw [heq] at hhydrated
        exact hhydrated.failed _
      . next found w' heq =>
        rw [heq] at hhydrated
        have hcached := hhydrated.cacheFound call found
        dsimp only
        split
        . refine ⟨hcached, ?_⟩
          rintro _ ⟨⟩ call' hmem
          cases hmem
        . have hbelow := hcached.startBranches hcall.schema call.foreignType
            (call.ids.filterMap fun id => found.lookup id) (.ofSize children.length) children
          split
          . next heq' =>
            rw [heq'] at hbelow
            exact hbelow.world.failed _
          . next branches _ heq' =>
            rw [heq'] at hbelow
            refine ⟨hbelow.world, ?_⟩
            rintro _ ⟨⟩ call' hmem
            exact hbelow.calls branches rfl call' (Branch.mem_calls_ofBranches hmem)

theorem Typed.startBranches {w : World} {store : Store} (h : w.Typed) (hstore : store.schema.Typed)
    (objectType : ObjectType) (owners : List EntityRef) (reporting : Reporting)
    (children : List (String × PreloadTree))
    : FollowsTyped Branch.allCalls (w.startBranches store objectType owners reporting children) := by
  cases children with
  | nil =>
    rw [World.startBranches]
    refine ⟨h, ?_⟩
    rintro _ ⟨⟩ call hmem
    cases hmem
  | cons child rest =>
    obtain ⟨name, below⟩ := child
    have hfirst : FollowsTyped Branch.calls (w.startBranch store objectType owners name below) := by
      unfold startBranch
      split
      . exact h.failed _
      . next call hcall =>
        have htyped := typed_branchCall hstore hcall
        split
        . exact h.arriveBranch htyped below
        . have hsent : (w.send store.adapter (.getAll call.foreignType.name call.ids)).2.Typed :=
            h.aside rfl rfl
          split
          . next heq =>
            rw [heq] at hsent
            exact hsent.arriveBranch htyped below
          . next heq =>
            rw [heq] at hsent
            refine ⟨hsent, ?_⟩
            rintro _ ⟨⟩ call' hmem
            rw [List.mem_singleton.1 hmem]
            exact htyped
    rw [startBranches_cons]
    split
    . exact hfirst.world.failed _
    . next branch hhold =>
      have hall := hfirst.cons hhold (hfirst.world.startBranches hstore objectType owners
        (reporting.next branch) rest)
      split <;> next heq =>
        rw [heq] at hall
        exact hall

end

mutual

theorem Typed.pollBranch {w : World} (h : w.Typed) (branch : Branch)
    (hcalls : ∀ call ∈ branch.calls, call.Typed) : FollowsTyped Branch.calls (w.pollBranch branch) := by
  cases branch with
  | calling call deadline below =>
    rw [World.pollBranch]
    split
    . exact h.arriveBranch (hcalls call List.mem_cons_self) below
    . refine ⟨h, ?_⟩
      rintro _ ⟨⟩
      exact hcalls
  | descending branches =>
    have hpolled := h.pollBranches (.ofSize branches.length) branches hcalls
    rw [World.pollBranch]
    split
    . next heq =>
      rw [heq] at hpolled
      exact hpolled.world.failed _
    . next branches' _ heq =>
      rw [heq] at hpolled
      refine ⟨hpolled.world, ?_⟩
      rintro _ ⟨⟩ call hmem
      exact hpolled.calls branches' rfl call (Branch.mem_calls_ofBranches hmem)
  | finished =>
    rw [World.pollBranch]
    refine ⟨h, ?_⟩
    rintro _ ⟨⟩
    exact hcalls
  | failed err =>
    rw [World.pollBranch]
    exact h.failed err

theorem Typed.pollBranches {w : World} (h : w.Typed) (reporting : Reporting) (branches : List Branch)
    (hcalls : ∀ call ∈ Branch.allCalls branches, call.Typed)
    : FollowsTyped Branch.allCalls (w.pollBranches reporting branches) := by
  cases branches with
  | nil =>
    rw [World.pollBranches]
    refine ⟨h, ?_⟩
    rintro _ ⟨⟩
    exact hcalls
  | cons b bs =>
    rw [Branch.allCalls] at hcalls
    have hfirst := h.pollBranch b fun call hmem => hcalls call (List.mem_append_left _ hmem)
    rw [World.pollBranches]
    dsimp only
    split
    . exact hfirst.world.failed _
    . next branch hhold =>
      have hall := hfirst.cons hhold (hfirst.world.pollBranches (reporting.next branch) bs
        fun call hmem => hcalls call (List.mem_append_right _ hmem))
      split <;> next heq =>
        rw [heq] at hall
        exact hall

end

/-! Tasks. -/

def TypedOutcome (out : Task × World) : Prop :=
  out.1.Typed ∧ out.2.Typed

theorem Typed.startPreload (h : w.Typed) (hq : q.Typed) (es : List EntityRef) (single : Bool)
    : TypedOutcome (w.startPreload q es single) := by
  unfold World.startPreload
  split
  . exact ⟨trivial, h⟩
  . have hstarted := h.startBranches hq.schema q.objectType es (.ofSize q.preload.children.length)
      q.preload.children
    dsimp only
    split
    . next heq =>
      rw [heq] at hstarted
      exact ⟨trivial, hstarted.world⟩
    . next branches _ heq =>
      rw [heq] at hstarted
      split
      . exact ⟨trivial, hstarted.world⟩
      . exact ⟨hstarted.calls branches rfl, hstarted.world⟩

theorem Typed.warnOf (h : w.Typed) (q : Query) : (w.warnOf q).Typed := by
  unfold World.warnOf
  split
  . exact h
  . exact h.aside rfl rfl

theorem Typed.arrive (h : w.Typed) (hjob : job.Typed) : TypedOutcome (w.arrive job) := by
  cases job with
  | get store objectType id =>
    unfold World.arrive
    dsimp only
    split
    . exact ⟨trivial, h⟩
    . exact ⟨trivial, h.hydrate? hjob.1 hjob.2 _⟩
  | getAll store objectType ids =>
    unfold World.arrive
    dsimp only
    split
    . exact ⟨trivial, h⟩
    . exact ⟨trivial, h.hydrateAll hjob.1 hjob.2 _⟩
  | reload e =>
    unfold World.arrive
    dsimp only
    split
    . exact ⟨trivial, h⟩
    . exact ⟨trivial, h.reloadWith e _⟩
  | write d single => exact ⟨trivial, h.applyDispatch d⟩
  | fetch q single =>
    unfold World.arrive
    dsimp only
    split
    . exact ⟨trivial, h.warnOf q⟩
    . next rs _ =>
      have hhydrated := (h.warnOf q).hydrateAll hjob.schema hjob.objectType (rs.map some)
      split
      . next heq =>
        rw [heq] at hhydrated
        exact ⟨trivial, hhydrated⟩
      . next es _ heq =>
        rw [heq] at hhydrated
        exact hhydrated.startPreload hjob (es.filterMap id) single
  | count q => exact ⟨Task.typed_answered .., h.warnOf q⟩
  | explain q => exact ⟨Task.typed_answered .., h.warnOf q⟩
  | readQuery q => exact ⟨Task.typed_answered .., h.warnOf q⟩
  | readRecord a typeName id => exact ⟨Task.typed_answered .., h⟩
  | readRecords a typeName ids => exact ⟨Task.typed_answered .., h⟩
  | writeOps a ops => exact ⟨Task.typed_answered .., h.aside rfl rfl⟩

theorem Typed.call (h : w.Typed) (hjob : job.Typed) : TypedOutcome (w.call job) := by
  have hsent : (w.send (job.adapter w) (job.call w)).2.Typed := h.aside rfl rfl
  unfold World.call
  split
  . next heq =>
    rw [heq] at hsent
    exact hsent.arrive hjob
  . next heq =>
    rw [heq] at hsent
    exact ⟨hjob, hsent⟩

theorem Typed.execute (h : w.Typed) (b : Batch) (single : Bool) : TypedOutcome (w.execute b single) := by
  by_cases hplan : b.plan w = []
  . rw [execute_of_plan_eq_nil hplan]
    exact ⟨trivial, h.destroyLocally _⟩
  . rw [execute_of_plan_ne_nil hplan]
    exact h.call trivial

theorem Typed.callForType (h : w.Typed) (hstore : store.schema.Typed) (typeName : String)
    {jobFor : ObjectType → Job} (hjob : ∀ t : ObjectType, t.Typed → (jobFor t).Typed)
    : TypedOutcome (w.callForType store typeName jobFor) := by
  unfold World.callForType
  split
  . exact ⟨trivial, h⟩
  . next t ht => exact h.call (hjob t (hstore.of_objectType ht))

theorem Typed.pollJoining (h : w.Typed) (l : LoadRef) : TypedOutcome (w.pollJoining l) := by
  have hpolled := h.pollLoad l
  unfold World.pollJoining
  dsimp only
  split <;> exact ⟨trivial, hpolled⟩

theorem Typed.start (h : w.Typed) (hrequest : request.Typed) : TypedOutcome (w.start request) := by
  cases request with
  | get store typeName id => exact h.callForType hrequest typeName fun _ ht => ⟨hrequest, ht⟩
  | getAll store typeName ids => exact h.callForType hrequest typeName fun _ ht => ⟨hrequest, ht⟩
  | related e name =>
    have hasked := h.askRelated e name
    unfold World.start
    dsimp only
    split
    . next heq =>
      rw [heq] at hasked
      exact ⟨trivial, hasked⟩
    . next heq =>
      rw [heq] at hasked
      exact ⟨trivial, hasked⟩
    . next l _ heq =>
      rw [heq] at hasked
      exact hasked.pollJoining l
  | save e =>
    unfold World.start
    dsimp only
    split
    . exact ⟨trivial, h⟩
    . exact h.execute _ true
  | destroy e =>
    unfold World.start
    dsimp only
    split
    . exact ⟨trivial, h⟩
    . exact h.execute _ true
  | reload e =>
    unfold World.start
    dsimp only
    split
    . exact ⟨trivial, h⟩
    . exact h.call trivial
  | execute b => exact h.execute b false
  | fetchWithDisplay q formats =>
    unfold World.start
    dsimp only
    split
    . exact ⟨trivial, h⟩
    . next q' hq' =>
      have hjob : (Job.fetch q' false).Typed := hrequest.withDisplay hq'
      exact h.call hjob
  | fetch q => exact h.call hrequest
  | first q =>
    have hjob : (Job.fetch q.first true).Typed := ⟨hrequest.schema, hrequest.objectType⟩
    exact h.call hjob
  | _ => exact h.call trivial

theorem Typed.poll (h : w.Typed) (ht : t.Typed) : TypedOutcome (w.poll t) := by
  cases t with
  | finished result => exact ⟨trivial, h⟩
  | calling job deadline =>
    unfold World.poll
    dsimp only
    split
    . exact h.arrive ht
    . exact ⟨ht, h⟩
  | joining l => exact h.pollJoining l
  | preloading es branches single =>
    have hpolled := h.pollBranches (.ofSize branches.length) branches ht
    unfold World.poll
    dsimp only
    split
    . next heq =>
      rw [heq] at hpolled
      exact ⟨trivial, hpolled.world⟩
    . next branches' _ heq =>
      rw [heq] at hpolled
      split
      . exact ⟨trivial, hpolled.world⟩
      . exact ⟨hpolled.calls branches' rfl, hpolled.world⟩

end World

end ObjectStore
