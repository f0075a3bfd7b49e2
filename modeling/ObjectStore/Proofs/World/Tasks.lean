import ObjectStore.Proofs.World.Preloads

/-!
This module proves that tasks keep a world coherent, whatever they are for and however far they have
got, and which relationships they can touch.
-/

namespace ObjectStore

namespace Job

/-- The schemas that a job builds entities with are proper. -/
def WellNamed : Job → Prop
  | get store .. | getAll store .. => store.schema.WellNamed
  | fetch q _ => q.store.schema.WellNamed
  | _ => True

/-- The relationships whose foreign ids a job replaces: those of the entity that it reloads. -/
def Reloads : Job → EntityRef → String → Prop
  | reload e, e', _ => e' = e
  | _, _, _ => False

end Job

namespace Task

def Reloads : Task → EntityRef → String → Prop
  | calling job _ => job.Reloads
  | _ => World.nowhere

/-- The relationships that a task may enter an object in, apart from those of hidden entities. -/
def Touches (w : World) : Task → EntityRef → String → Prop
  | calling job _, e, name => job.Reloads e name
  | joining l, e, name => ∃ load, w.load? l = some load ∧ load.owner = e ∧ load.relation = name
  | _, _, _ => False

/-- What a task has in hand. The hidden entities are those that it has not handed out yet. -/
def Sound (w : World) (hidden : EntityRef → Prop) : Task → Prop
  | calling job _ => job.WellNamed
  | preloading _ branches _ => ∀ call ∈ Branch.allCalls branches, call.Sound w hidden
  | _ => True

theorem eq_finished_of_isFinished {t : Task} (h : t.isFinished = true)
    : ∃ result, t = .finished result := by
  cases t with
  | finished result => exact ⟨result, rfl⟩
  | _ => cases h

end Task

namespace Request

def WellNamed : Request → Prop
  | get store .. | getAll store .. => store.schema.WellNamed
  | fetch q | first q | fetchWithDisplay q _ => q.store.schema.WellNamed
  | _ => True

def Reloads : Request → EntityRef → String → Prop
  | reload e, e', _ => e' = e
  | _, _, _ => False

def Touches : Request → EntityRef → String → Prop
  | reload e, e', _ => e' = e
  | related e name, e', name' => e' = e ∧ name' = name
  | _, _, _ => False

end Request

theorem Query.store_of_withDisplay {q q' : Query} {formats : Option (List DisplayFormat)}
    (h : q.withDisplay formats = .ok q') : q'.store = q.store := by
  unfold withDisplay following at h
  obtain ⟨preload, _, h⟩ := bind_eq_ok.1 h
  cases h
  rfl

theorem Entity.sameRelations_noted (e : Entity) (op : WriteOp)
    : SameRelations e (Dispatch.noted e op) := by
  cases op <;> exact ⟨⟨rfl, rfl, rfl⟩, rfl, rfl⟩

namespace World

variable {ids links : EntityRef → String → Prop} {hidden : EntityRef → Prop} {w : World}
  {e : EntityRef} {l : LoadRef} {name : String}

theorem Coherent.destroyLocally (h : w.Coherent) (d : Dispatch)
    : Evolves ids links w (d.destroyLocally w) := by
  unfold Dispatch.destroyLocally
  induction d.localDestroys generalizing w with
  | nil => exact h.evolves_refl
  | cons e es ih =>
    have hfirst : Evolves ids links w (w.modifyEntity e Entity.markDestroyed) :=
      h.modifyRelations ⟨⟨rfl, rfl, rfl⟩, rfl, rfl⟩
    exact hfirst.trans (ih hfirst.coherent)

theorem Coherent.settleEach (h : w.Coherent) (results : List (Planned × Adapter.WriteResult))
    : Evolves ids links w (Dispatch.settleEach w results).2 := by
  fun_induction Dispatch.settleEach w results with
  | case1 => exact h.evolves_refl
  | case2 w p rest ih =>
    rw [Dispatch.succeed_eq] at ih ⊢
    have hfirst : Evolves ids links w
        (w.modifyEntity p.entity fun entity => Dispatch.noted entity p.op) :=
      h.modifyRelations (Entity.sameRelations_noted _ p.op)
    exact hfirst.trans (ih hfirst.coherent)
  | case3 w p error rest failures w' heq ih =>
    rw [heq] at ih
    exact ih h

theorem Coherent.applyDispatch (h : w.Coherent) (d : Dispatch)
    : Evolves ids links w (w.applyDispatch d).2 := by
  have happlied : Evolves ids links w (w.modifyAdapter d.adapter fun _ =>
      ((w.adapter d.adapter).applyBatch d.ops).2) :=
    h.modifyAdapter d.adapter ((h.wellKept d.adapter).applyBatch d.ops)
  unfold World.applyDispatch Dispatch.settle
  dsimp only
  apply happlied.trans
  split
  . exact happlied.coherent.evolves_refl
  . next results _ =>
    split
    . exact happlied.coherent.evolves_refl
    . have hlocal : Evolves ids links _ _ := happlied.coherent.destroyLocally d
      have heach := hlocal.trans (hlocal.coherent.settleEach (d.planned.zip results))
      split <;> exact heach

theorem Coherent.warnOf (h : w.Coherent) (q : Query) : Evolves ids links w (w.warnOf q) := by
  unfold World.warnOf
  split
  . exact h.evolves_refl
  . exact h.warn q.warning?

/-- A world evolved, and the task that is left has sound things in hand. -/
structure Proceeds (ids links : EntityRef → String → Prop) (hidden : EntityRef → Prop) (w : World)
    (out : Task × World) : Prop where
  evolves : Evolves ids links w out.2
  sound : out.1.Sound out.2 hidden
  reloads : ∀ e name, out.1.Reloads e name → ids e name

theorem Evolves.proceeds_of_finished {out : Task × World} (h : Evolves ids links w out.2)
    (hfinished : out.1.isFinished = true) : Proceeds ids links hidden w out := by
  obtain ⟨result, hresult⟩ := Task.eq_finished_of_isFinished hfinished
  refine ⟨h, ?_, ?_⟩ <;> rw [hresult]
  . trivial
  . exact fun _ _ => nofun

theorem Proceeds.after {w' : World} {out : Task × World} (h : Evolves ids links w w')
    (hout : Proceeds ids links hidden w' out) : Proceeds ids links hidden w out :=
  ⟨h.trans hout.evolves, hout.sound, hout.reloads⟩

theorem isFinished_answered {α : Type} (f : α → Outcome) (result : Except AdapterError α)
    : (Task.answered f result).isFinished = true := by
  cases result <;> rfl

theorem Coherent.startPreload (h : w.Coherent) {q : Query} (hstore : q.store.schema.WellNamed)
    {es : List EntityRef} (hes : ∀ e ∈ es, hidden e ∧ ∃ id, w.Found q.objectType id e)
    (hnew : ∀ e, w.entities.size ≤ e → hidden e) (hlinks : ∀ e name, hidden e → links e name)
    (single : Bool) : Proceeds ids links hidden w (w.startPreload q es single) := by
  unfold World.startPreload
  split
  . exact h.evolves_refl.proceeds_of_finished rfl
  . have hstarted := h.startBranches hstore hes hnew (.ofSize q.preload.children.length)
      q.preload.children
    dsimp only
    cases heq : w.startBranches q.store q.objectType es (.ofSize q.preload.children.length)
      q.preload.children with | mk results w' =>
    rw [heq] at hstarted
    have hevolves : Evolves ids links w w' := hstarted.evolves.mono nowhere_le hlinks
    cases results with
    | error err => exact hevolves.proceeds_of_finished rfl
    | ok branches =>
      dsimp only
      split
      . exact hevolves.proceeds_of_finished rfl
      . exact ⟨hevolves, hstarted.sound branches rfl, fun _ _ => nofun⟩

theorem Coherent.arrive (h : w.Coherent) {job : Job} (hjob : job.WellNamed)
    (hnew : ∀ e, w.entities.size ≤ e → hidden e)
    (hids : ∀ e name, job.Reloads e name → ids e name)
    (hlinks : ∀ e name, job.Reloads e name ∨ hidden e → links e name)
    : Proceeds ids links hidden w (w.arrive job) := by
  cases job with
  | get store objectType id =>
    unfold World.arrive
    dsimp only
    split
    . exact h.evolves_refl.proceeds_of_finished rfl
    . next r _ => exact (h.hydrate? hjob objectType r).1.proceeds_of_finished rfl
  | getAll store objectType objects =>
    unfold World.arrive
    dsimp only
    split
    . exact h.evolves_refl.proceeds_of_finished rfl
    . next rs _ => exact (h.hydrateAll hjob objectType rs).1.proceeds_of_finished rfl
  | reload e =>
    unfold World.arrive
    dsimp only
    split
    . exact h.evolves_refl.proceeds_of_finished rfl
    . next r _ =>
      exact (h.reloadWith (fun name => hids e name rfl) (fun name => hlinks e name (.inl rfl))
        r).proceeds_of_finished rfl
  | write d single => exact (h.applyDispatch d).proceeds_of_finished rfl
  | fetch q single =>
    have hwarned : Evolves ids links w (w.warnOf q) := h.warnOf q
    unfold World.arrive
    dsimp only
    split
    . exact hwarned.proceeds_of_finished rfl
    . next rs _ =>
      obtain ⟨hhydrated, hfound⟩ : Evolves ids links (w.warnOf q) _ ∧ _ :=
        hwarned.coherent.hydrateAll hjob q.objectType (rs.map some)
      cases heq : (w.warnOf q).hydrateAll q.store q.objectType (rs.map some) with | mk result w' =>
      rw [heq] at hhydrated hfound
      have hevolves := hwarned.trans hhydrated
      cases result with
      | error err => exact hevolves.proceeds_of_finished rfl
      | ok es =>
        apply Proceeds.after hevolves
        apply hhydrated.coherent.startPreload hjob
        . intro e he
          obtain ⟨e', he', heq'⟩ := List.mem_filterMap.1 he
          cases heq'
          obtain ⟨hle, hfound⟩ := hfound es rfl e he'
          exact ⟨hnew e (Nat.le_trans hwarned.entities_le hle), hfound⟩
        . intro e he
          exact hnew e (Nat.le_trans hevolves.entities_le he)
        . intro e name he
          exact hlinks e name (.inr he)
  | count q => exact (h.warnOf q).proceeds_of_finished (isFinished_answered ..)
  | explain q => exact (h.warnOf q).proceeds_of_finished (isFinished_answered ..)
  | readQuery q => exact (h.warnOf q).proceeds_of_finished (isFinished_answered ..)
  | readRecord a typeName id => exact h.evolves_refl.proceeds_of_finished (isFinished_answered ..)
  | readRecords a typeName ids => exact h.evolves_refl.proceeds_of_finished (isFinished_answered ..)
  | writeOps a ops =>
    have happlied : Evolves ids links w (w.modifyAdapter a fun _ =>
        ((w.adapter a).applyBatch ops).2) := h.modifyAdapter a ((h.wellKept a).applyBatch ops)
    exact happlied.proceeds_of_finished (isFinished_answered ..)

theorem Coherent.call (h : w.Coherent) {job : Job} (hjob : job.WellNamed)
    (hnew : ∀ e, w.entities.size ≤ e → hidden e)
    (hids : ∀ e name, job.Reloads e name → ids e name)
    (hlinks : ∀ e name, job.Reloads e name ∨ hidden e → links e name)
    : Proceeds ids links hidden w (w.call job) := by
  have hsent : Evolves ids links w (w.send (job.adapter w) (job.call w)).2 := h.send _ _
  unfold World.call
  cases heq : w.send (job.adapter w) (job.call w) with | mk arrival w' =>
  rw [heq] at hsent
  cases arrival with
  | none =>
    apply Proceeds.after hsent
    apply hsent.coherent.arrive hjob _ hids hlinks
    intro e he
    exact hnew e (Nat.le_trans hsent.entities_le he)
  | some deadline => exact ⟨hsent, hjob, hids⟩

theorem Coherent.execute (h : w.Coherent) (b : Batch) (single : Bool)
    (hnew : ∀ e, w.entities.size ≤ e → hidden e) (hlinks : ∀ e name, hidden e → links e name)
    : Proceeds ids links hidden w (w.execute b single) := by
  by_cases hplan : b.plan w = []
  . rw [execute_of_plan_eq_nil hplan]
    exact (h.destroyLocally _).proceeds_of_finished rfl
  . rw [execute_of_plan_ne_nil hplan]
    exact h.call trivial hnew (fun _ _ => nofun) fun e name hlink =>
      hlinks e name (hlink.resolve_left nofun)

theorem Coherent.callForType (h : w.Coherent) (store : Store) (typeName : String)
    {job : ObjectType → Job} (hjob : ∀ t, (job t).WellNamed)
    (hnew : ∀ e, w.entities.size ≤ e → hidden e)
    (hids : ∀ t e name, (job t).Reloads e name → ids e name)
    (hlinks : ∀ t e name, (job t).Reloads e name ∨ hidden e → links e name)
    : Proceeds ids links hidden w (w.callForType store typeName job) := by
  unfold World.callForType
  split
  . exact h.evolves_refl.proceeds_of_finished rfl
  . next t _ => exact h.call (hjob t) hnew (hids t) (hlinks t)

theorem Coherent.pollJoining (h : w.Coherent)
    (hlinks : ∀ load, w.load? l = some load → links load.owner load.relation)
    : Proceeds ids links hidden w (w.pollJoining l) := by
  have hpolled : Evolves ids links w (w.pollLoad l) :=
    h.pollLoad fun load hload _ => hlinks load hload
  unfold World.pollJoining
  dsimp only
  split
  . exact hpolled.proceeds_of_finished rfl
  . exact ⟨hpolled, trivial, fun _ _ => nofun⟩

theorem poll_joining (w : World) (l : LoadRef) : w.poll (.joining l) = w.pollJoining l :=
  rfl

theorem pollJoining_of_due {load : Load} (h : w.Due l load)
    : w.pollJoining l = (.finished ((w.fetchLoad load).1.map .entity), w.pollLoad l) := by
  unfold World.pollJoining
  dsimp only
  rw [loadResult?_pollLoad_of_due h]

theorem pollJoining_of_result {result : Except StoreError (Option EntityRef)}
    (h : w.loadResult? l = some result)
    : w.pollJoining l = (.finished (result.map .entity), w) := by
  unfold World.pollJoining
  dsimp only
  rw [pollLoad_of_result h, h]

/-- The call has not arrived yet. -/
theorem pollJoining_of_lt {load : Load} {deadline : Nat} (hload : w.load? l = some load)
    (hunder : load.state = .underWay deadline) (hlt : w.clock < deadline)
    : w.pollJoining l = (.joining l, w) := by
  have hsame : w.pollLoad l = w := by
    apply pollLoad_of_not_due
    rintro load' ⟨hload', deadline', hle, hunder'⟩
    rw [hload] at hload'
    cases hload'
    rw [hunder] at hunder'
    cases hunder'
    exact Nat.not_lt.2 hle hlt
  have hnone : w.loadResult? l = none := by
    unfold loadResult?
    rw [hload]
    dsimp only
    rw [hunder]
  unfold World.pollJoining
  dsimp only
  rw [hsame, hnone]

/-- Who waits for a related object waits for a load of it. -/
theorem Coherent.load_of_askRelated (h : w.Coherent) (he : e < w.entities.size) (name : String)
    (l : LoadRef) (hwaiting : (w.askRelated e name).1 = .ok (.waiting l))
    : ∃ load, (w.askRelated e name).2.load? l = some load
        ∧
      load.owner = e
        ∧
      load.relation = name := by
  unfold World.askRelated at hwaiting ⊢
  dsimp only at hwaiting ⊢
  split at hwaiting
  . cases hwaiting
  . next r hr =>
    split at hwaiting
    . cases hwaiting
    . next l' hl' =>
      cases hwaiting
      obtain ⟨load, hload, hserves⟩ := (h.links e he name).loading l hl'
      exact ⟨load, hload, hserves.owner, hserves.relation⟩
    . next hunknown =>
      split at hwaiting
      . cases hwaiting
      . next id hid =>
        cases hwaiting
        exact h.load_of_startLoad he (Entity.relationship_eq_ok.1 hr) hid

theorem Coherent.start_related (h : w.Coherent) (he : e < w.entities.size)
    (hlinks : links e name) : Proceeds ids links hidden w (w.start (.related e name)) := by
  have hasked : Evolves ids links w (w.askRelated e name).2 := h.askRelated he hlinks
  have hload := h.load_of_askRelated he name
  unfold World.start
  dsimp only
  cases heq : w.askRelated e name with | mk answer w' =>
  rw [heq] at hasked hload
  cases answer with
  | error err => exact hasked.proceeds_of_finished rfl
  | ok answer =>
    cases answer with
    | known target => exact hasked.proceeds_of_finished rfl
    | waiting l =>
      apply Proceeds.after hasked
      apply hasked.coherent.pollJoining
      obtain ⟨load, hwaited, howner, hrelation⟩ := hload l rfl
      intro load' hload'
      rw [hwaited] at hload'
      cases hload'
      rw [howner, hrelation]
      exact hlinks

theorem Coherent.start (h : w.Coherent) {request : Request} (hrequest : request.WellNamed)
    (hnew : ∀ e, w.entities.size ≤ e → hidden e)
    (hrelated : ∀ e name, request = .related e name → e < w.entities.size)
    (hids : ∀ e name, request.Reloads e name → ids e name)
    (hlinks : ∀ e name, request.Touches e name ∨ hidden e → links e name)
    : Proceeds ids links hidden w (w.start request) := by
  have hhidden : ∀ e name, hidden e → links e name := fun e name he => hlinks e name (.inr he)
  cases request with
  | get store typeName id =>
    exact h.callForType store typeName (fun _ => hrequest) hnew (fun _ _ _ => nofun)
      fun _ e name hlink => hhidden e name (hlink.resolve_left nofun)
  | getAll store typeName objects =>
    exact h.callForType store typeName (fun _ => hrequest) hnew (fun _ _ _ => nofun)
      fun _ e name hlink => hhidden e name (hlink.resolve_left nofun)
  | related e name => exact h.start_related (hrelated e name rfl) (hlinks e name (.inl ⟨rfl, rfl⟩))
  | save e =>
    unfold World.start
    dsimp only
    split
    . exact h.evolves_refl.proceeds_of_finished rfl
    . exact h.execute _ true hnew hhidden
  | destroy e =>
    unfold World.start
    dsimp only
    split
    . exact h.evolves_refl.proceeds_of_finished rfl
    . exact h.execute _ true hnew hhidden
  | reload e =>
    unfold World.start
    dsimp only
    split
    . exact h.evolves_refl.proceeds_of_finished rfl
    . exact h.call trivial hnew hids hlinks
  | execute b => exact h.execute b false hnew hhidden
  | fetchWithDisplay q formats =>
    unfold World.start
    dsimp only
    split
    . exact h.evolves_refl.proceeds_of_finished rfl
    . next q' hq' =>
      have hjob : (Job.fetch q' false).WellNamed := by
        change q'.store.schema.WellNamed
        rw [Query.store_of_withDisplay hq']
        exact hrequest
      exact h.call hjob hnew (fun _ _ => nofun) fun e name hlink =>
        hhidden e name (hlink.resolve_left nofun)
  | fetch q | first q =>
    exact h.call hrequest hnew (fun _ _ => nofun) fun e name hlink =>
      hhidden e name (hlink.resolve_left nofun)
  | _ =>
    exact h.call trivial hnew (fun _ _ => nofun) fun e name hlink =>
      hhidden e name (hlink.resolve_left nofun)

theorem Coherent.poll (h : w.Coherent) {t : Task} (ht : t.Sound w hidden)
    (hnew : ∀ e, w.entities.size ≤ e → hidden e)
    (hids : ∀ e name, t.Reloads e name → ids e name)
    (hlinks : ∀ e name, t.Touches w e name ∨ hidden e → links e name)
    : Proceeds ids links hidden w (w.poll t) := by
  cases t with
  | finished result => exact h.evolves_refl.proceeds_of_finished rfl
  | calling job deadline =>
    unfold World.poll
    dsimp only
    split
    . exact h.arrive ht hnew hids hlinks
    . exact ⟨h.evolves_refl, ht, hids⟩
  | joining l =>
    apply h.pollJoining
    intro load hload
    exact hlinks _ _ (.inl ⟨load, hload, rfl, rfl⟩)
  | preloading es branches single =>
    have hpolled := h.pollBranches hnew (.ofSize branches.length) branches ht
    unfold World.poll
    dsimp only
    cases heq : w.pollBranches (.ofSize branches.length) branches with | mk results w' =>
    rw [heq] at hpolled
    have hevolves : Evolves ids links w w' :=
      hpolled.evolves.mono nowhere_le fun e name he => hlinks e name (.inr he)
    cases results with
    | error err => exact hevolves.proceeds_of_finished rfl
    | ok branches' =>
      dsimp only
      split
      . exact hevolves.proceeds_of_finished rfl
      . exact ⟨hevolves, hpolled.sound branches' rfl, fun _ _ => nofun⟩

end World

end ObjectStore
