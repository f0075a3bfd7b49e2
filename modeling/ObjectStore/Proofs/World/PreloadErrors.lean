import ObjectStore.Proofs.Entity.Hydration
import ObjectStore.Proofs.World.AcceptedPaths
import ObjectStore.Proofs.World.Preloads

/-!
This module proves that relationships which a query accepts can be followed. From one level to the next
the types of the objects are those along the paths of the tree, so that a call may fail in the store, but
never because the schema has no such relationship or no such type.
-/

namespace ObjectStore

/-- The errors of paths that the schema does not have. -/
def StoreError.isStructural : StoreError → Bool
  | unknownRelationship .. | unknownType _ | preloadTooDeep .. => true
  | _ => false

/-- A result that is not such an error, with something that is true of it. -/
def Fits {α : Type} (P : α → Prop) : Except StoreError α → Prop
  | .ok a => P a
  | .error e => e.isStructural = false

namespace Entity

variable {t : ObjectType} {r : Record} {e : StoreError}

theorem isStructural_of_enterAttributes {attrs : List AttributeDef} {start : Keyed Value}
    (h : attrs.foldlM (enterAttribute r) start = .error e) : e.isStructural = false := by
  induction attrs generalizing start with
  | nil => cases h
  | cons attr attrs ih =>
    rw [List.foldlM_cons, bind_eq_error] at h
    rcases h with h | ⟨next, _, h⟩
    . unfold enterAttribute at h
      split at h <;> cases h
      rfl
    . exact ih h

theorem isStructural_of_hydrate {store : Store} (h : hydrate store t r = .error e)
    : e.isStructural = false := by
  unfold hydrate decode at h
  rw [decodeAttributes_eq] at h
  split at h
  . cases h
  . next heq =>
    cases h
    split at heq
    . cases heq
      rfl
    . split at heq
      . cases heq
      . next hattributes =>
        cases heq
        exact isStructural_of_enterAttributes hattributes

end Entity

/-- A branch below which the tree has the relationships of the types that it comes to. -/
inductive Branch.Supported : Branch → Prop where
  | calling {call : BranchCall} {deadline : Nat} {below : PreloadTree}
    (h : call.store.Supports call.foreignType below) : Supported (calling call deadline below)
  | descending {branches : List Branch} (h : ∀ b ∈ branches, Supported b)
    : Supported (descending branches)
  | finished : Supported finished
  | failed {e : StoreError} (h : e.isStructural = false) : Supported (failed e)

theorem Branch.Supported.ofBranches {branches : List Branch} (h : ∀ b ∈ branches, b.Supported)
    : (Branch.ofBranches branches).Supported := by
  unfold Branch.ofBranches
  split
  . exact .finished
  . exact .descending h

theorem Reporting.fits_hold (reporting : Reporting) {result : Except StoreError Branch}
    (h : Fits Branch.Supported result) : Fits Branch.Supported (reporting.hold result) := by
  unfold hold
  split
  . exact Branch.Supported.failed h
  . exact h

namespace World

variable {store : Store} {t foreign : ObjectType} {owners : List EntityRef} {name : String}
  {below : PreloadTree} {call : BranchCall} {q : Query}

theorem fits_hydrate (w : World) (store : Store) (t : ObjectType) (r : Record)
    : Fits (fun _ => True) (w.hydrate store t r).1 := by
  unfold hydrate
  split
  . next h => exact Entity.isStructural_of_hydrate h
  . trivial

theorem fits_hydrateFound (w : World) (call : BranchCall) (records : List (String × Option Record))
    : Fits (fun _ => True) (w.hydrateFound call records).1 := by
  induction records generalizing w with
  | nil => trivial
  | cons head rest ih =>
    obtain ⟨id, _ | r⟩ := head
    . exact ih w
    . have hfirst := w.fits_hydrate call.store call.foreignType r
      unfold hydrateFound
      split
      . next heq =>
        rw [heq] at hfirst
        exact hfirst
      . next w' heq =>
        have hrest := ih w'
        split
        . next heq' =>
          rw [heq'] at hrest
          exact hrest
        . trivial

theorem fits_hydrateAll (w : World) (store : Store) (t : ObjectType) (records : List (Option Record))
    : Fits (fun _ => True) (w.hydrateAll store t records).1 := by
  induction records generalizing w with
  | nil => trivial
  | cons head rest ih =>
    have hfirst : Fits (fun _ => True) (w.hydrate? store t head).1 := by
      unfold hydrate?
      split
      . trivial
      . next r =>
        have hone := w.fits_hydrate store t r
        split
        . trivial
        . next heq =>
          rw [heq] at hone
          exact hone
    unfold hydrateAll
    split
    . next heq =>
      rw [heq] at hfirst
      exact hfirst
    . next w' heq =>
      have hrest := ih w'
      split
      . next heq' =>
        rw [heq'] at hrest
        exact hrest
      . trivial

theorem exists_branchCall (w : World) (owners : List EntityRef)
    (hforeign : store.foreignType? t name = some foreign)
    : ∃ call, w.branchCall store t owners name = .ok call ∧ call.store = store
        ∧ call.foreignType = foreign := by
  obtain ⟨r, hr, htype⟩ := Store.foreignType?_eq_some.1 hforeign
  unfold branchCall
  rw [hr]
  dsimp only
  rw [htype]
  exact ⟨_, rfl, rfl, rfl⟩

/-- The step into one relationship of a level. -/
theorem fits_startBranch (w : World) (owners : List EntityRef)
    (hforeign : store.foreignType? t name = some foreign) (hbelow : store.Supports foreign below)
    (harrive : ∀ (w : World) (call : BranchCall), call.store.Supports call.foreignType below
      → Fits Branch.Supported (w.arriveBranch call below).1)
    : Fits Branch.Supported (w.startBranch store t owners name below).1 := by
  obtain ⟨call, hcall, hstore, htype⟩ := w.exists_branchCall owners hforeign
  have hsupports : call.store.Supports call.foreignType below := by
    rw [hstore, htype]
    exact hbelow
  unfold startBranch
  rw [hcall]
  dsimp only
  split
  . exact harrive w call hsupports
  . split
    . exact harrive _ call hsupports
    . exact Branch.Supported.calling hsupports

mutual

theorem fits_arriveBranch (w : World) (call : BranchCall) (tree : PreloadTree)
    (h : call.store.Supports call.foreignType tree)
    : Fits Branch.Supported (w.arriveBranch call tree).1 := by
  cases tree with
  | node children =>
    rw [arriveBranch]
    split
    . rfl
    . next records _ =>
      have hhydrated := w.fits_hydrateFound call (call.ids.zip records)
      split
      . next heq =>
        rw [heq] at hhydrated
        exact hhydrated
      . next found w' heq =>
        dsimp only
        split
        . exact Branch.Supported.finished
        . have hstarted := fits_startBranches (w'.cacheFound call found)
            (call.ids.filterMap fun id => found.lookup id) (.ofSize children.length) children h
          split
          . next heq' =>
            rw [heq'] at hstarted
            exact hstarted
          . next branches _ heq' =>
            rw [heq'] at hstarted
            exact Branch.Supported.ofBranches hstarted

theorem fits_startBranches (w : World) {store : Store} {t : ObjectType} (owners : List EntityRef)
    (reporting : Reporting) (children : List (String × PreloadTree))
    (h : store.Supports t (.node children))
    : Fits (fun bs => ∀ b ∈ bs, b.Supported) (w.startBranches store t owners reporting children).1 := by
  cases children with
  | nil =>
    rw [startBranches]
    exact List.forall_mem_nil _
  | cons child rest =>
    obtain ⟨name, below⟩ := child
    obtain ⟨foreign, hforeign, hbelow⟩ := h.child List.mem_cons_self
    have hfirst := reporting.fits_hold (w.fits_startBranch owners hforeign hbelow
      fun w call hcall => fits_arriveBranch w call below hcall)
    rw [startBranches_cons]
    split
    . next heq =>
      rw [heq] at hfirst
      exact hfirst
    . next branch heq =>
      rw [heq] at hfirst
      have hothers := fits_startBranches (w.startBranch store t owners name below).2 owners
        (reporting.next branch) rest h.tail
      split
      . next heq' =>
        rw [heq'] at hothers
        exact hothers
      . next heq' =>
        rw [heq'] at hothers
        exact List.forall_mem_cons.2 ⟨hfirst, hothers⟩

end

mutual

theorem fits_pollBranch (w : World) (branch : Branch) (h : branch.Supported)
    : Fits Branch.Supported (w.pollBranch branch).1 := by
  cases branch with
  | calling call deadline below =>
    cases h with
    | calling hcall =>
      rw [pollBranch]
      split
      . exact w.fits_arriveBranch call below hcall
      . exact Branch.Supported.calling hcall
  | descending branches =>
    cases h with
    | descending hbranches =>
      have hpolled := fits_pollBranches w (.ofSize branches.length) branches hbranches
      rw [pollBranch]
      split
      . next heq =>
        rw [heq] at hpolled
        exact hpolled
      . next heq =>
        rw [heq] at hpolled
        exact Branch.Supported.ofBranches hpolled
  | finished =>
    rw [pollBranch]
    exact Branch.Supported.finished
  | failed e =>
    cases h with
    | failed he =>
      rw [pollBranch]
      exact he

theorem fits_pollBranches (w : World) (reporting : Reporting) (branches : List Branch)
    (h : ∀ b ∈ branches, b.Supported)
    : Fits (fun bs => ∀ b ∈ bs, b.Supported) (w.pollBranches reporting branches).1 := by
  cases branches with
  | nil =>
    rw [pollBranches]
    exact h
  | cons b bs =>
    obtain ⟨hb, hbs⟩ := List.forall_mem_cons.1 h
    have hfirst := reporting.fits_hold (fits_pollBranch w b hb)
    rw [pollBranches]
    dsimp only
    split
    . next heq =>
      rw [heq] at hfirst
      exact hfirst
    . next branch heq =>
      rw [heq] at hfirst
      have hothers := fits_pollBranches (w.pollBranch b).2 (reporting.next branch) bs hbs
      split
      . next heq' =>
        rw [heq'] at hothers
        exact hothers
      . next heq' =>
        rw [heq'] at hothers
        exact List.forall_mem_cons.2 ⟨hfirst, hothers⟩

end

end World

/-! Tasks that fetch. -/

/-- A task whose query, or what has become of it, is one that its store supports. -/
def Task.Supported : Task → Prop
  | finished result => Fits (fun _ => True) result
  | calling (.fetch q _) _ => q.store.Supports q.objectType q.preload
  | preloading _ branches _ => ∀ b ∈ branches, b.Supported
  | _ => False

/-- What becomes of a task that is polled again and again, in whatever worlds. -/
inductive Task.Polled : Task → Task → Prop where
  | refl (task : Task) : Polled task task
  | poll {task task' : Task} (w : World) (h : Polled task task') : Polled task (w.poll task').1

/-- The query whose results a request is for. -/
def Request.fetched? : Request → Option Query
  | fetch q => some q
  | first q => some q.first
  | fetchWithDisplay q formats => (q.withDisplay formats).toOption
  | _ => none

namespace World

variable {q : Query}

theorem supported_startPreload (w : World) (h : q.store.Supports q.objectType q.preload)
    (es : List EntityRef) (single : Bool) : (w.startPreload q es single).1.Supported := by
  have htree : q.store.Supports q.objectType (.node q.preload.children) := by
    cases hpreload : q.preload with
    | node children =>
      rw [hpreload] at h
      exact h
  unfold startPreload
  split
  . trivial
  . have hstarted := w.fits_startBranches es (.ofSize q.preload.children.length) q.preload.children htree
    dsimp only
    split
    . next heq =>
      rw [heq] at hstarted
      exact hstarted
    . next heq =>
      rw [heq] at hstarted
      split
      . trivial
      . exact hstarted

theorem supported_arrive (w : World) (h : q.store.Supports q.objectType q.preload) (single : Bool)
    : (w.arrive (.fetch q single)).1.Supported := by
  unfold arrive
  dsimp only
  split
  . rfl
  . next rs _ =>
    have hhydrated := (w.warnOf q).fits_hydrateAll q.store q.objectType (rs.map some)
    split
    . next heq =>
      rw [heq] at hhydrated
      exact hhydrated
    . exact supported_startPreload _ h _ single

theorem supported_call (w : World) (h : q.store.Supports q.objectType q.preload) (single : Bool)
    : (w.call (.fetch q single)).1.Supported := by
  unfold call
  split
  . exact supported_arrive _ h single
  . exact h

theorem supported_start (w : World) {request : Request} (hrequest : request.fetched? = some q)
    (h : q.store.Supports q.objectType q.preload) : (w.start request).1.Supported := by
  cases request with
  | fetch q₀ =>
    cases hrequest
    exact w.supported_call h false
  | first q₀ =>
    cases hrequest
    exact w.supported_call h true
  | fetchWithDisplay q₀ formats =>
    unfold start
    dsimp only
    rw [eq_ok_of_toOption hrequest]
    exact w.supported_call h false
  | _ => cases hrequest

theorem supported_poll (w : World) {task : Task} (h : task.Supported) : (w.poll task).1.Supported := by
  cases task with
  | finished result => exact h
  | calling job deadline =>
    cases job with
    | fetch q single =>
      unfold poll
      dsimp only
      split
      . exact w.supported_arrive h single
      . exact h
    | _ => cases h
  | joining l => cases h
  | preloading es branches single =>
    have hpolled := w.fits_pollBranches (.ofSize branches.length) branches h
    unfold poll
    dsimp only
    split
    . next heq =>
      rw [heq] at hpolled
      exact hpolled
    . next heq =>
      rw [heq] at hpolled
      split
      . trivial
      . exact hpolled

end World

theorem Task.Polled.supported {task task' : Task} (h : Polled task task') (htask : task.Supported)
    : task'.Supported := by
  induction h with
  | refl => exact htask
  | poll w _ ih => exact w.supported_poll ih

/-- No task that is polled ends with an error of a path that the schema does not have. -/
def Task.NeverStructural (task : Task) : Prop :=
  ∀ task' e, Polled task task' → task' = .finished (.error e) → e.isStructural = false

theorem Task.Supported.neverStructural {task : Task} (h : task.Supported) : task.NeverStructural := by
  rintro task' e hpolled rfl
  exact hpolled.supported h

/-- The paths of a query that was accepted with all its relationships are no longer than the store
allows and lead from type to type, and to follow them never brings an error of a path that the schema
does not have, whatever the results are and whatever happens in between. -/
theorem Query.accepted_includes_fit {store : Store} {typeName : String} {t : ObjectType}
    (ht : store.objectType typeName = .ok t) (hnamed : store.schema.RelationsNamed)
    {steps : List IncludeStep} {q : Query} (hq : (Query.ofType store t).buildAhead steps = .ok q)
    : (∀ path ∈ q.preload.paths,
        (Text.segments path).length ≤ store.config.maxPreloadDepth
          ∧
        ∀ front name back, Text.segments path = front ++ name :: back →
          ∃ t' r, store.typeAlong? t front = some t' ∧ t'.belongsTo? name = some r)
        ∧ (∀ (w : World) (es : List EntityRef) (single : Bool),
            (w.startPreload q es single).1.NeverStructural)
        ∧ ∀ (w : World) (request : Request), request.fetched? = some q →
            (w.start request).1.NeverStructural := by
  have ht' : t.belongsTo? "" = none := hnamed typeName t (Store.objectType_eq_ok.1 ht)
  obtain ⟨inserted, hgrown⟩ := Query.exists_grown_of_buildAhead hq
  have hsupports := hgrown.supports rfl hnamed ht'
  refine ⟨?_, ?_, ?_⟩
  . intro path hpath
    have hpreload : q.preload = .ofPaths inserted := hgrown.preload
    rw [PreloadTree.paths_eq_map_dotted] at hpath
    obtain ⟨way, hway, rfl⟩ := List.mem_map.1 hpath
    have hsegments : Text.segments (Text.dotted way) = way := by
      rw [hpreload] at hway
      exact PreloadTree.segments_dotted_of_mem_ways hway
    obtain ⟨hdepth, htypes⟩ := hgrown.ways rfl hnamed ht' ((PreloadTree.mem_ways _).1 hway).2
    rw [hsegments]
    refine ⟨hdepth, ?_⟩
    rintro front name back rfl
    dsimp only [Query.ofType] at htypes
    rw [Store.typeAlong?_append] at htypes
    cases hfront : store.typeAlong? t front with
    | none =>
      rw [hfront] at htypes
      cases htypes
    | some t' =>
      rw [hfront, Option.bind_some] at htypes
      obtain ⟨foreign, hforeign, _⟩ := Store.isSome_typeAlong?_cons.1 htypes
      obtain ⟨r, hr, _⟩ := Store.foreignType?_eq_some.1 hforeign
      exact ⟨t', r, rfl, hr⟩
  . intro w es single
    exact (w.supported_startPreload hsupports es single).neverStructural
  . intro w request hrequest
    exact (w.supported_start hrequest hsupports).neverStructural

namespace Store

def personType : ObjectType :=
  (ObjectType.ofName "Person").addBelongsTo "boss" "Person" "staff"

def deviceType : ObjectType :=
  ((ObjectType.ofName "Device").addBelongsTo "owner" "Person" "devices").withDisplayFormat
    "\x7bowner.boss.name\x7d"

/-- Two relationships may be followed, and one of the types points at itself. -/
def deviceStore : Store :=
  ⟨0, (Schema.addType .empty personType).addType deviceType, { maxPreloadDepth := 2 }⟩

theorem relationsNamed_deviceStore : deviceStore.schema.RelationsNamed := by
  have hvalues : ∀ t ∈ deviceStore.schema.values, t.belongsTo? "" = none := by
    decide +kernel
  intro name t ht
  exact hvalues t ((Keyed.mem_values_iff _ t).2 ⟨name, ht⟩)

end Store

theorem Query.accepted_includes_fit_of_devices
    : Store.deviceStore.objectType "Device" = .ok Store.deviceType
        ∧ Store.deviceStore.schema.RelationsNamed
        ∧ ∃ q, (Query.ofType Store.deviceStore Store.deviceType).buildAhead
            [.follow ["owner"], .build (.take 3), .display none] = .ok q
          ∧ q.preload.paths = ["owner", "owner.boss"]
          ∧ (Text.segments "owner.boss").length ≤ 2
          ∧ (∃ t r, Store.deviceStore.typeAlong? Store.deviceType ["owner"] = some t
              ∧ t.belongsTo? "boss" = some r)
          ∧ ∀ w : World, (w.start (.fetch q)).1.NeverStructural := by
  have ht : Store.deviceStore.objectType "Device" = .ok Store.deviceType := rfl
  have hpaths : ((Query.ofType Store.deviceStore Store.deviceType).buildAhead
      [.follow ["owner"], .build (.take 3), .display none]).toOption.map (·.preload.paths)
      = some ["owner", "owner.boss"] := by
    decide +kernel
  obtain ⟨q, hsome, hlisted⟩ := Option.map_eq_some_iff.1 hpaths
  have hq := eq_ok_of_toOption hsome
  obtain ⟨hfit, -, hfetch⟩ := accepted_includes_fit ht Store.relationsNamed_deviceStore hq
  obtain ⟨hdepth, htypes⟩ := hfit "owner.boss" (by rw [hlisted]; simp)
  have hsegments : Text.segments "owner.boss" = ["owner"] ++ "boss" :: [] := by
    decide +kernel
  exact ⟨ht, Store.relationsNamed_deviceStore, q, hq, hlisted, hdepth, htypes _ _ _ hsegments,
    fun w => hfetch w _ rfl⟩

end ObjectStore
