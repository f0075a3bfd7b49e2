import ObjectStore.Proofs.World.PreloadFetch
import ObjectStore.Proofs.World.SharedLoad

/-!
This module proves that following relationships ahead of time changes nothing but when the calls are
made: whoever walks from the results of a query along the tree comes to the same objects as without the
tree, and no call is made on the way.
-/

namespace ObjectStore.World

variable {w w' : World} {store : Store} {t foreign : ObjectType} {a : Adapter} {e : EntityRef}
  {name : String} {l : LoadRef} {load : Load} {deadline : Nat} {q : Query} {xs : List Entity}
  {owners : List EntityRef} {children : List (String × PreloadTree)} {path : List String}

/-- Walks along relationships, one after the other, until there is no object. -/
def follow (w : World) (e : EntityRef) : List String → Option (Option EntityRef) × World
  | [] => (some (some e), w)
  | name :: path =>
    match w.perform (.related e name) with
    | (.finished (.ok (.entity (some target))), w) => w.follow target path
    | (.finished (.ok (.entity none)), w) => (some none, w)
    | (_, w) => (none, w)

/-- Who waits for a load that is under way gets its result when it arrives. -/
theorem run_pollJoining (hload : w.load? l = some load) (hunder : load.state = .underWay deadline)
    : ∃ clock, ({ w with clock }).Due l load
        ∧
      (w.pollJoining l).2.run (w.pollJoining l).1 = ({ w with clock }).pollJoining l := by
  by_cases hdue : deadline ≤ w.clock
  . have hjoined := pollJoining_of_due ⟨hload, deadline, hdue, hunder⟩
    refine ⟨w.clock, ⟨hload, deadline, hdue, hunder⟩, ?_⟩
    rw [hjoined]
    exact run_of_isFinished rfl
  . have hdue' : ∀ clock, deadline ≤ clock → ({ w with clock }).Due l load :=
      fun clock hle => ⟨hload, deadline, hle, hunder⟩
    have hjoining := pollJoining_of_lt hload hunder (Nat.not_le.1 hdue)
    have hrounds : 0 < callsLeft (.joining l) := Nat.one_pos
    have hdeadlines : w.deadlines (.joining l) = [deadline] := by
      unfold deadlines
      dsimp only
      rw [hload]
      dsimp only
      rw [hunder]
    obtain ⟨clock, hle, hrun⟩ := run_waiting rfl hrounds (fun _ => hjoining) hdeadlines
      fun clock hle => by
        rw [poll_joining, pollJoining_of_due (hdue' clock hle)]
        rfl
    refine ⟨clock, hdue' clock hle, ?_⟩
    rw [hjoining]
    exact hrun

/-- What the call of a load brings. -/
theorem Serves.fetchLoad_cases (hserves : w.Serves a load.store) (honline : a.offline = false)
    (hread : a.object? load.store load.foreignType load.id = none →
      a.record? load.foreignType.name load.id = none)
    : a.object? load.store load.foreignType load.id = none ∧ w.fetchLoad load = (.ok none, w)
        ∨
      ∃ x, a.object? load.store load.foreignType load.id = some x
        ∧ w.fetchLoad load = (.ok (some w.entities.size), (w.addEntity x).2) := by
  obtain ⟨_, log, hadapter⟩ := hserves
  have hget : (w.adapter load.store.adapter).get load.foreignType.name load.id
      = .ok ((a.record? load.foreignType.name load.id).map a.handOut) := by
    rw [hadapter]
    unfold Adapter.get Adapter.checkOnline
    rw [honline]
    rfl
  unfold fetchLoad
  rw [hget]
  cases hobject : a.object? load.store load.foreignType load.id with
  | none =>
    left
    rw [hread hobject]
    exact ⟨rfl, rfl⟩
  | some x =>
    right
    refine ⟨x, rfl, ?_⟩
    unfold Adapter.object? at hobject
    obtain ⟨r, hr, hx⟩ := Option.bind_eq_some_iff.1 hobject
    rw [hr]
    dsimp only [hydrate?]
    rw [hydrate_of_ofRecord? hx]

theorem entity_pollLoad_of_found {x : Entity} (hdue : w.Due l load)
    (howner : load.owner < w.entities.size)
    (hfetch : w.fetchLoad load = (.ok (some w.entities.size), (w.addEntity x).2))
    : (w.pollLoad l).entity w.entities.size = x
        ∧
      w.entities.size < (w.pollLoad l).entities.size := by
  have hload : (w.addEntity x).2.load? l = some load := hdue.1
  rw [pollLoad_of_due hdue, arriveLoad_eq, hfetch]
  constructor
  . rw [entity_settleLoad hload, entity_modifyEntity_of_ne _ (Nat.ne_of_gt howner),
      entity_addEntity_self]
  . rw [settleLoad_eq hload]
    change _ < ((w.addEntity x).2.modifyEntity _ _).entities.size
    rw [size_modifyEntity, size_addEntity]
    exact Nat.lt_succ_self _

theorem asked_sendLoad (w : World) (e : EntityRef) (name foreignType : String) (load : Load)
    (clock : Nat)
    : Asked load.store.adapter [.get foreignType load.id] w
        { w.sendLoad e name foreignType load with clock } where
  size := Array.size_modify
  adapter href := w.adapter_modifyAdapter_self href _
  other _ hne := w.adapter_modifyAdapter_of_ne hne _

/-- To ask for an object that nothing is known of brings it as it is stored. -/
theorem perform_related_of_unknown (hserves : w.Serves a store) (honline : a.offline = false)
    (he : e < w.entities.size) (hunchanged : (w.entity e).Unchanged store t)
    (hlinks : (w.entity e).links = .empty) (htype : store.foreignType? t name = some foreign)
    (hread : ∀ id, (w.entity e).foreignId? name = some id →
      a.object? store foreign id = none → a.record? foreign.name id = none)
    : ∃ target w', w.perform (.related e name) = (.finished (.ok (.entity target)), w')
        ∧ w'.Serves a store
        ∧ target.map w'.entity
            = ((w.entity e).foreignId? name).bind (a.object? store foreign)
        ∧ ∀ e', target = some e' → e' < w'.entities.size := by
  obtain ⟨r, hr, hforeign⟩ := Option.bind_eq_some_iff.1 htype
  rw [← hunchanged.objectType] at hr
  have hlink : (w.entity e).links.get? name = none := by
    rw [hlinks]
    rfl
  unfold perform
  cases hid : (w.entity e).foreignId? name with
  | none =>
    rw [start_related_of_nothing hr hlink hid]
    refine ⟨none, _, run_of_isFinished rfl, ?_, rfl, nofun⟩
    exact hserves.aside rfl
  | some id =>
    have hobjectType : (w.entity e).store.objectType r.foreignType = .ok foreign := by
      rw [hunchanged.store]
      cases hok : store.objectType r.foreignType with
      | error err =>
        rw [hok] at hforeign
        cases hforeign
      | ok t =>
        rw [hok] at hforeign
        cases hforeign
        rfl
    obtain ⟨deadline, hstart⟩ := start_related_of_unknown hr hlink hid hobjectType
    rw [hunchanged.store] at hstart
    obtain ⟨clock, hdue, hrun⟩ := run_pollJoining (load?_sendLoad_self w e name r.foreignType
      ⟨e, name, store, foreign, id, .underWay deadline⟩) rfl
    have hserves' := (w.asked_sendLoad e name r.foreignType
      ⟨e, name, store, foreign, id, .underWay deadline⟩ clock).serves hserves
    have hlt : e < ({ w.sendLoad e name r.foreignType
        ⟨e, name, store, foreign, id, .underWay deadline⟩ with clock }).entities.size := by
      change e < (w.modifyEntity e _).entities.size
      rw [size_modifyEntity]
      exact he
    rw [hstart, hrun, pollJoining_of_due hdue]
    rcases hserves'.fetchLoad_cases honline (hread id hid) with ⟨hnone, hfetch⟩ | ⟨x, hx, hfetch⟩
    . rw [hfetch]
      exact ⟨none, _, rfl, hserves'.aside (adapters_pollLoad _ _), hnone.symm, nofun⟩
    . obtain ⟨hentity, hsize⟩ := entity_pollLoad_of_found hdue hlt hfetch
      rw [hfetch]
      refine ⟨some _, _, rfl, hserves'.aside (adapters_pollLoad _ _), ?_, ?_⟩
      . rw [Option.map_some, hentity]
        exact hx.symm
      . rintro _ ⟨⟩
        exact hsize

theorem follow_cons_of_some {e' : EntityRef}
    (h : w.perform (.related e name) = (.finished (.ok (.entity (some e'))), w'))
    (path : List String) : w.follow e (name :: path) = w'.follow e' path := by
  rw [follow, h]

theorem follow_cons_of_none
    (h : w.perform (.related e name) = (.finished (.ok (.entity none)), w')) (path : List String)
    : w.follow e (name :: path) = (some none, w') := by
  rw [follow, h]

theorem follow_singleton {target : Option EntityRef}
    (h : w.perform (.related e name) = (.finished (.ok (.entity target)), w'))
    : w.follow e [name] = (some target, w') := by
  cases target with
  | none => exact follow_cons_of_none h []
  | some e' => exact follow_cons_of_some h []

/-- To ask for an object that is known takes no call and changes nothing. -/
theorem Linked.perform_related {target : String → Option EntityRef}
    (h : w.Linked a store foreign owners name target) (hlevel : w.Level store t owners)
    (htype : store.foreignType? t name = some foreign) (he : e ∈ owners)
    : w.perform (.related e name)
        =
      (.finished (.ok (.entity (((w.content e).foreignId? name).bind target))), w) := by
  obtain ⟨r, hr, _⟩ := Option.bind_eq_some_iff.1 htype
  rw [← (hlevel e he).2.objectType] at hr
  unfold perform
  rw [start_related_of_resolved hr (h.link e he)]
  exact run_of_isFinished rfl

/-- What is loaded at a level is what is loaded for each of its relationships. -/
theorem Loaded.child (h : Loaded a store w t owners children) {below : PreloadTree}
    (hchild : (name, below) ∈ children)
    : owners = []
        ∨
      ∃ foreign target, store.foreignType? t name = some foreign
        ∧ w.Linked a store foreign owners name target
        ∧ Loaded a store w foreign (w.nextLevel owners name target) below.children := by
  induction h with
  | done => cases hchild
  | nobody => exact .inl rfl
  | @cons _ foreign _ _ _ _ target htype hlinked hnext _ _ ihothers =>
    rcases List.mem_cons.1 hchild with heq | hchild
    . cases heq
      exact .inr ⟨foreign, target, htype, hlinked, hnext⟩
    . exact ihothers hchild

theorem mem_foreignIdsOf {id : String} (he : e ∈ owners)
    (hid : (w.content e).foreignId? name = some id) : id ∈ w.foreignIdsOf owners name := by
  unfold foreignIdsOf Entity.foreignIdsOf
  rw [List.mem_eraseDups, List.mem_filterMap]
  exact ⟨w.content e, List.mem_map_of_mem he, hid⟩

theorem mem_nextLevel {target : String → Option EntityRef} {e' : EntityRef} (he : e ∈ owners)
    (htarget : ((w.content e).foreignId? name).bind target = some e')
    : e' ∈ w.nextLevel owners name target := by
  obtain ⟨id, hid, htarget⟩ := Option.bind_eq_some_iff.1 htarget
  exact List.mem_filterMap.2 ⟨id, mem_foreignIdsOf he hid, htarget⟩

/-- Where everything was loaded, a walk along the tree takes no call, and it ends where it would end if
nothing had been loaded. -/
theorem Loaded.follow_agrees (h : Loaded a store w t owners children)
    (hlevel : w.Level store t owners) (he : e ∈ owners)
    (hpath : (PreloadTree.node children).HasPath path) {w₀ : World} {e₀ : EntityRef}
    (hserves : w₀.Serves a store) (honline : a.offline = false) (he₀ : e₀ < w₀.entities.size)
    (hsame : w₀.entity e₀ = w.content e)
    : ∃ target target₀ w₁, w.follow e path = (some target, w)
        ∧
      w₀.follow e₀ path = (some target₀, w₁)
        ∧
      target.map w.content = target₀.map w₁.content := by
  induction path generalizing t owners children e w₀ e₀ with
  | nil =>
    refine ⟨some e, some e₀, w₀, rfl, rfl, ?_⟩
    rw [Option.map_some, Option.map_some]
    unfold content at hsame ⊢
    rw [hsame]
    rfl
  | cons name path ih =>
    cases hpath with
    | @cons _ _ below _ hchild hrest =>
    rcases h.child hchild with rfl | ⟨foreign, target, htype, hlinked, hnext⟩
    . cases he
    have heager := hlinked.perform_related hlevel htype he
    obtain ⟨target₀, w₁, hlazy, hserves₁, htarget₀, hlt⟩ :=
      perform_related_of_unknown hserves honline he₀ (hsame ▸ (hlevel e he).2)
        (by rw [hsame]; rfl) htype (by
          intro id hid hnone
          rw [hsame] at hid
          have hmem := mem_foreignIdsOf he hid
          apply hlinked.missing id hmem
          rw [← hlinked.object id hmem] at hnone
          exact Option.map_eq_none_iff.1 hnone)
    have hsame₁ : target₀.map w₁.entity
        = (((w.content e).foreignId? name).bind target).map w.content := by
      rw [htarget₀, hsame]
      cases hid : (w.content e).foreignId? name with
      | none => rfl
      | some id => exact (hlinked.object id (mem_foreignIdsOf he hid)).symm
    cases htarget : ((w.content e).foreignId? name).bind target with
    | none =>
      rw [htarget] at heager hsame₁
      cases Option.map_eq_none_iff.1 hsame₁
      exact ⟨none, none, w₁, follow_cons_of_none heager path, follow_cons_of_none hlazy path, rfl⟩
    | some e' =>
      rw [htarget, Option.map_some] at hsame₁
      rw [htarget] at heager
      obtain ⟨e₁, rfl, hentity⟩ := Option.map_eq_some_iff.1 hsame₁
      cases below with
      | node inner =>
        rw [follow_cons_of_some heager, follow_cons_of_some hlazy]
        exact ih hnext hlinked.nextLevel (mem_nextLevel he htarget) hrest hserves₁ (hlt e₁ rfl)
          hentity

/-- Owners that a walk from one level leads to share what they point at. -/
theorem Loaded.follow_shared (h : Loaded a store w t owners children)
    (hlevel : w.Level store t owners)
    (hpath : (PreloadTree.node children).HasPath (path ++ [name]))
    : ∃ target : String → Option EntityRef, ∀ e ∈ owners, ∀ o,
        w.follow e path = (some (some o), w) →
          w.follow o [name] = (some (((w.content o).foreignId? name).bind target), w) := by
  induction path generalizing t owners children with
  | nil =>
    cases hpath with
    | cons hchild _ =>
    rcases h.child hchild with rfl | ⟨foreign, target, htype, hlinked, _⟩
    . exact ⟨fun _ => none, nofun⟩
    refine ⟨target, ?_⟩
    intro e he o hfollow
    rw [follow] at hfollow
    cases hfollow
    exact follow_singleton (hlinked.perform_related hlevel htype he)
  | cons name' path ih =>
    cases hpath with
    | @cons _ _ below _ hchild hrest =>
    rcases h.child hchild with rfl | ⟨foreign, target, htype, hlinked, hnext⟩
    . exact ⟨fun _ => none, nofun⟩
    cases below with
    | node inner =>
      obtain ⟨shared, hshared⟩ := ih hnext hlinked.nextLevel hrest
      refine ⟨shared, ?_⟩
      intro e he o hfollow
      have hknown := hlinked.perform_related hlevel htype he
      cases htarget : ((w.content e).foreignId? name').bind target with
      | none =>
        rw [htarget] at hknown
        rw [follow_cons_of_none hknown] at hfollow
        cases hfollow
      | some e' =>
        rw [htarget] at hknown
        rw [follow_cons_of_some hknown] at hfollow
        exact hshared e' (mem_nextLevel he htarget) o hfollow

/-- A query that follows no relationships returns its results as they are stored. -/
theorem perform_fetch_plain (hfinds : (w.adapter q.store.adapter).Finds q xs)
    : ∃ clock, w.perform (.fetch q.plain)
        =
      (.finished (.ok (.entities (w.newRefs xs))), w.hydrated q.plain xs clock) := by
  have hplain : (w.adapter q.plain.store.adapter).Finds q.plain xs := hfinds
  have harrive : ∀ clock, (w.arrival (.fetch q.plain false) clock).arrive (.fetch q.plain false)
      = (.finished (.ok (.entities (w.newRefs xs))), w.hydrated q.plain xs clock) := by
    intro clock
    rw [arrive_fetch hplain, startPreload_of_children_eq_nil rfl]
    rfl
  obtain ⟨clock, hrun⟩ := run_call fun clock => (by rw [harrive]; rfl :
    ((w.arrival (.fetch q.plain false) clock).arrive (.fetch q.plain false)).1.isFinished = true)
  exact ⟨clock, hrun.trans (harrive clock)⟩

theorem asked_arrival (w : World) (q : Query)
    : Asked q.store.adapter [.query q.objectType.name] w (w.arrival (.fetch q false) w.clock) where
  size := Array.size_modify
  adapter href := w.adapter_modifyAdapter_self href _
  other _ hne := w.adapter_modifyAdapter_of_ne hne _

/-- To follow the relationships of a query ahead of time takes the query and one call for each node of
the tree at most. From then on a walk along the tree takes no call, it ends at the same object as it
would without the tree, and owners of one level that point at the same object share one entity. -/
theorem fetch_follows_ahead (w : World) (q : Query) (es : List EntityRef) (w' : World)
    (hadapter : q.store.adapter < w.adapters.size) (htree : q.preload.WellFormed)
    (h : w.perform (.fetch q) = (.finished (.ok (.entities es)), w'))
    : (∃ calls, (w'.adapter q.store.adapter).calls
            = (w.adapter q.store.adapter).calls ++ .query q.objectType.name :: calls
          ∧ calls.Perm (q.preload.calls (w.adapter q.store.adapter) q.store q.objectType
              (es.map w'.content))
          ∧ calls.length ≤ q.preload.size
          ∧ ∀ ref, ref ≠ q.store.adapter → w'.adapter ref = w.adapter ref)
        ∧
      (∃ w₀, w.perform (.fetch q.plain) = (.finished (.ok (.entities es)), w₀)
          ∧ ∀ e ∈ es, ∀ path, q.preload.HasPath path →
              ∃ target target₀ w₁, w'.follow e path = (some target, w')
                ∧ w₀.follow e path = (some target₀, w₁)
                ∧ target.map w'.content = target₀.map w₁.content)
        ∧
      ∀ path name, q.preload.HasPath (path ++ [name]) → ∀ e ∈ es, ∀ e' ∈ es, ∀ o o',
        w'.follow e path = (some (some o), w') → w'.follow e' path = (some (some o'), w') →
          (w'.content o).foreignId? name = (w'.content o').foreignId? name →
            w'.follow o [name] = w'.follow o' [name] := by
  have hfetching : Fetching w q _ _ := fetching_perform hadapter htree
  rw [h] at hfetching
  cases hfetching with
  | @found _ xs hfollowed hloaded =>
  obtain ⟨hfinds, hprogress, hlevel, hcontent⟩ := hfollowed
  have hpath : ∀ path, q.preload.HasPath path →
      (PreloadTree.node q.preload.children).HasPath path := by
    intro path hpath
    generalize q.preload = tree at hpath
    cases tree
    exact hpath
  refine ⟨?_, ?_, ?_⟩
  . obtain ⟨calls, hasked, hperm⟩ := hprogress.asked
    have hall := (w.asked_arrival q).trans hasked
    rw [List.append_nil] at hperm
    refine ⟨calls, ?_, ?_, ?_, hall.other⟩
    . unfold Adapter.calls
      rw [hall.adapter hadapter, List.reverse_append, List.reverse_reverse]
      rfl
    . rw [hcontent]
      exact hperm
    . rw [hperm.length_eq]
      exact PreloadTree.length_calls_le ..
  . obtain ⟨clock, hplain⟩ := perform_fetch_plain hfinds
    refine ⟨_, hplain, ?_⟩
    intro e he path hpath'
    have hplain' : (w.adapter q.plain.store.adapter).Finds q.plain xs := hfinds
    have hlazy := following_hydrated hplain' .nil clock
    have hsame := (w.map_entity_hydrated q.plain xs clock).trans hcontent.symm
    exact hloaded.follow_agrees hlevel he (hpath path hpath') (hlazy.serves hadapter)
      hfinds.offline_eq_false (hlazy.level e he).1 (List.map_inj_left.1 hsame e he)
  . intro path name hpath' e he e' he' o o' hfollow hfollow' hsame
    obtain ⟨target, hshared⟩ := hloaded.follow_shared hlevel (hpath _ hpath')
    rw [hshared e he o hfollow, hshared e' he' o' hfollow', hsame]

/-- The results that a task has ended with. -/
def entities? (out : Task × World) : Option (List EntityRef) :=
  match out.1 with
  | .finished (.ok (.entities es)) => some es
  | _ => none

theorem eq_of_entities? {out : Task × World} {es : List EntityRef} (h : entities? out = some es)
    : out = (.finished (.ok (.entities es)), out.2) := by
  obtain ⟨task, w⟩ := out
  unfold entities? at h
  split at h
  . next heq =>
    cases h
    rw [← heq]
  . cases h

/-- Two phones in the hall. Calls take time. -/
def phonesWorld : World :=
  { World.empty with
    adapters := #[(LinkSession.phoneAdapter.insert
      ((Record.ofId "phone" "q").withRelation "room" (some "hall"))).withLatency 10] }

def phonesQuery : Query :=
  { Query.ofType LinkSession.phoneStore LinkSession.phoneType with
    preload := .node [("room", .empty)] }

theorem phones_share_the_hall
    : ∃ w', phonesWorld.perform (.fetch phonesQuery) = (.finished (.ok (.entities [0, 1])), w')
        ∧ (w'.adapter 0).calls = [.query "phone", .getAll "room" ["hall"]]
        ∧ w'.follow 0 ["room"] = w'.follow 1 ["room"] := by
  have hperform := eq_of_entities? (show entities? (phonesWorld.perform (.fetch phonesQuery))
    = some [0, 1] by decide +kernel)
  have hfollowing : (Query.ofType LinkSession.phoneStore LinkSession.phoneType).following ["room"]
      = .ok phonesQuery := rfl
  have htree := PreloadTree.wellFormed_of_following PreloadTree.wellFormed_empty hfollowing
  have hpath : phonesQuery.preload.HasPath ["room"] := .cons List.mem_cons_self (.nil _)
  obtain ⟨⟨calls, hcalls, hperm, -, -⟩, -, hshared⟩ :=
    fetch_follows_ahead phonesWorld phonesQuery [0, 1] _ (by decide) htree hperform
  have hdue : phonesQuery.preload.calls (phonesWorld.adapter 0) phonesQuery.store
      phonesQuery.objectType
      ([0, 1].map (phonesWorld.perform (.fetch phonesQuery)).2.content)
        = [.getAll "room" ["hall"]] := by
    decide +kernel
  refine ⟨_, hperform, ?_, hshared [] "room" hpath 0 (by decide) 1 (by decide) 0 1 rfl rfl ?_⟩
  . rw [← List.perm_singleton.1 (hdue ▸ hperm)]
    exact hcalls
  . decide +kernel

end ObjectStore.World
