import ObjectStore.Proofs.World.Lifecycle
import ObjectStore.Proofs.World.PreloadWalk

/-!
This module contains the calls on an entity that can fail. It proves that a call which ends with an error
leaves all entities as they were, wherever on its way it failed.
-/

namespace ObjectStore

/-- The error of a result. -/
def failure? {α : Type} : Except StoreError α → Option StoreError
  | .ok _ => none
  | .error err => some err

@[simp]
theorem failure?_map {α β : Type} (f : α → β) (result : Except StoreError α)
    : failure? (result.map f) = failure? result := by
  cases result <;> rfl

theorem failure?_eq_some {α : Type} {result : Except StoreError α} {err : StoreError}
    : failure? result = some err ↔ result = .error err := by
  cases result <;> simp [failure?]

def Task.failure? : Task → Option StoreError
  | finished result => ObjectStore.failure? result
  | _ => none

/-- The calls on an entity, except for those that write it. -/
inductive EntityCall where
  | set (name : String) (v : Value)
  | setRelated (name : String) (target : Option EntityRef)
  | setRelatedId (name : String) (id : Option String)
  | hasMany (name : String)
  | copyAs (typeName : Option String)
  | reload
  | related (name : String)

/-- Makes a call and waits until it has ended, with an error or without one. -/
def EntityCall.make (w : World) (e : EntityRef) : EntityCall → Option StoreError × World
  | set name v => (failure? (w.set e name v).1, (w.set e name v).2)
  | setRelated name target =>
    (failure? (w.setRelated e name target).1, (w.setRelated e name target).2)
  | setRelatedId name id => (failure? (w.setRelatedId e name id).1, (w.setRelatedId e name id).2)
  | hasMany name => (failure? (w.hasMany e name).1, (w.hasMany e name).2)
  | copyAs typeName => (failure? (w.copyAs e typeName).1, (w.copyAs e typeName).2)
  | reload => ((w.perform (.reload e)).1.failure?, (w.perform (.reload e)).2)
  | related name => ((w.perform (.related e name)).1.failure?, (w.perform (.related e name)).2)

theorem Keyed.erase_insert_of_get?_eq_none {α : Type} {t : Keyed α} {name : String}
    (h : t.get? name = none) (value : α) : (t.insert name value).erase name = t := by
  apply ext_get?
  intro name'
  rw [get?_erase, get?_insert]
  split
  . next hname => rw [hname, h]
  . rfl

namespace Entity

/-- A load that fails takes out the link that was put in for it. -/
theorem finishLoad_setLink_of_error {e : Entity} {name : String} (h : e.links.get? name = none)
    (l : LoadRef) (err : StoreError)
    : (e.setLink name (.loading l)).finishLoad name l (.error err) = e := by
  have hlink : (e.setLink name (.loading l)).links.get? name = some (.loading l) :=
    Keyed.get?_insert_self ..
  unfold finishLoad
  rw [if_pos hlink]
  unfold dropLink setLink
  dsimp only
  rw [Keyed.erase_insert_of_get?_eq_none h]

end Entity

namespace World

variable {w begun : World} {e : EntityRef} {name : String} {l : LoadRef} {load : Load}
  {err : StoreError}

theorem modifyEntity_modifyEntity (w : World) (e : EntityRef) (f g : Entity → Entity)
    : (w.modifyEntity e f).modifyEntity e g = w.modifyEntity e fun x => g (f x) := by
  have hsame : (w.entities.modify e f).modify e g = w.entities.modify e fun x => g (f x) := by
    apply Array.ext (by simp)
    intro e' _ _
    rw [Array.getElem_modify, Array.getElem_modify, Array.getElem_modify]
    split <;> rfl
  unfold World.modifyEntity
  rw [hsame]

/-- Where there is no entity, nothing is changed. -/
theorem modifyEntity_of_same {f : Entity → Entity}
    (h : e < w.entities.size → f (w.entity e) = w.entity e) : w.modifyEntity e f = w := by
  have hsame : w.entities.modify e f = w.entities := by
    apply Array.ext (by simp)
    intro e' _ he'
    rw [Array.getElem_modify]
    split
    . next heq =>
      subst heq
      have hentity : w.entity e = w.entities[e] := by
        unfold World.entity
        rw [Array.getD_eq_getD_getElem?, Array.getElem?_eq_getElem he', Option.getD_some]
      rw [← hentity, h he']
    . rfl
  unfold World.modifyEntity
  rw [hsame]

/-! Calls that end at once. -/

theorem tryModify_of_failure {f : Entity → Except StoreError Entity}
    (h : failure? (w.tryModify e f).1 = some err) : (w.tryModify e f).2 = w := by
  unfold World.tryModify at h ⊢
  split at h
  . cases h
  . rfl

theorem hasMany_of_failure (h : failure? (w.hasMany e name).1 = some err)
    : (w.hasMany e name).2 = w := by
  unfold World.hasMany at h ⊢
  split at h
  . cases h
  . rfl

theorem copyAs_of_failure {typeName : Option String}
    (h : failure? (w.copyAs e typeName).1 = some err) : (w.copyAs e typeName).2 = w := by
  unfold World.copyAs at h ⊢
  dsimp only at h ⊢
  split at h
  . rfl
  . split at h
    . rfl
    . cases h

/-! Calls that wait for the adapter. -/

theorem reloadWith_of_failure {r : Option Record} (h : failure? (w.reloadWith e r).1 = some err)
    : (w.reloadWith e r).2 = w := by
  cases r with
  | none => rfl
  | some r => exact tryModify_of_failure h

/-- When the call of a reload arrives, it ends well, or nothing happens. -/
theorem arrive_reload_cases (w : World) (e : EntityRef)
    : (w.arrive (.reload e)).1 = .finished (.ok .done) ∨ (w.arrive (.reload e)).2 = w := by
  unfold World.arrive
  dsimp only
  split
  . exact .inr rfl
  . next r _ =>
    dsimp only
    cases hresult : (w.reloadWith e r).1 with
    | ok _ => exact .inl rfl
    | error err =>
      exact .inr (reloadWith_of_failure (failure?_eq_some.mpr hresult))

theorem start_reload_cases (w : World) (e : EntityRef)
    : (w.start (.reload e)).1 = .finished (.ok .done)
        ∨
      (w.start (.reload e)).2.entities = w.entities := by
  unfold World.start
  dsimp only
  split
  . exact .inr rfl
  . rcases w.call_cases (.reload e) with ⟨deadline, hcall⟩ | hcall
    . rw [hcall]
      exact .inr rfl
    . rw [hcall]
      apply (arrive_reload_cases _ e).imp_right
      intro hsame
      rw [hsame]
      rfl

theorem poll_reload_cases (w : World) (e : EntityRef) (deadline : Nat)
    : (w.poll (.calling (.reload e) deadline)).1 = .finished (.ok .done)
        ∨
      (w.poll (.calling (.reload e) deadline)).2 = w := by
  by_cases hdue : deadline ≤ w.clock
  . rw [poll_calling_of_due hdue]
    exact arrive_reload_cases w e
  . rw [poll_calling_of_not_due hdue]
    exact .inr rfl

theorem perform_reload_of_destroyed (h : (w.entity e).destroyed = true)
    : w.perform (.reload e) = (.finished (.error (.destroyed (w.entity e).identity)), w) := by
  have hstart : w.start (.reload e)
      = (.finished (.error (.destroyed (w.entity e).identity)), w) := by
    unfold World.start
    exact if_pos h
  unfold perform
  rw [hstart]
  rfl

theorem perform_reload_of_lives (h : (w.entity e).destroyed = false)
    : ∃ clock, w.perform (.reload e) = (w.arrival (.reload e) clock).arrive (.reload e) := by
  have hstart : w.start (.reload e) = w.call (.reload e) := by
    unfold World.start
    exact if_neg (Bool.eq_false_iff.1 h)
  unfold perform
  rw [hstart]
  exact run_call fun clock => isFinished_arrive_reload (w.arrival (.reload e) clock) e

theorem perform_reload_cases (w : World) (e : EntityRef)
    : (w.perform (.reload e)).1 = .finished (.ok .done)
        ∨
      (w.perform (.reload e)).2.entities = w.entities := by
  cases hdestroyed : (w.entity e).destroyed with
  | true =>
    rw [perform_reload_of_destroyed hdestroyed]
    exact .inr rfl
  | false =>
    obtain ⟨clock, hperform⟩ := perform_reload_of_lives hdestroyed
    rw [hperform]
    apply (arrive_reload_cases _ e).imp_right
    intro hsame
    rw [hsame]
    rfl

/-! Loads of related objects. -/

theorem hydrate?_of_error {store : Store} {t : ObjectType} {r : Option Record}
    (h : (w.hydrate? store t r).1 = .error err) : (w.hydrate? store t r).2 = w := by
  cases r with
  | none => cases h
  | some r =>
    unfold World.hydrate? World.hydrate at h ⊢
    dsimp only at h ⊢
    cases hhydrate : Entity.hydrate store t r with
    | ok x =>
      rw [hhydrate] at h
      cases h
    | error err' => rfl

theorem fetchLoad_of_error (h : (w.fetchLoad load).1 = .error err) : (w.fetchLoad load).2 = w := by
  unfold fetchLoad at h ⊢
  split
  . rfl
  . next r hr =>
    rw [hr] at h
    exact hydrate?_of_error h

/-- If a load fails and nothing else was done to the entities, they are as they were before it. -/
theorem entities_settleLoad_of_error (hlink : (w.entity e).links.get? name = none)
    (hload : begun.load? l = some load) (howner : load.owner = e) (hrelation : load.relation = name)
    (hbegun : begun.entities
      = (w.modifyEntity e fun x => x.setLink name (.loading l)).entities)
    (err : StoreError) : (begun.settleLoad l (.error err)).entities = w.entities := by
  have hsettled : (begun.settleLoad l (.error err)).entities
      = begun.entities.modify e fun x => x.finishLoad name l (.error err) := by
    rw [settleLoad_eq hload, howner, hrelation]
    rfl
  have htwice := w.modifyEntity_modifyEntity e (fun x => x.setLink name (.loading l)) fun x =>
    x.finishLoad name l (.error err)
  rw [hsettled, hbegun]
  exact congrArg World.entities (htwice.trans
    (modifyEntity_of_same fun _ => Entity.finishLoad_setLink_of_error hlink l err))

theorem start_related_of_unknown_type {r : Relationship} {id : String}
    (hr : (w.entity e).objectType.belongsTo? name = some r)
    (hlink : (w.entity e).links.get? name = none) (hid : (w.entity e).foreignId? name = some id)
    (htype : (w.entity e).store.objectType r.foreignType = .error err)
    : w.start (.related e name)
        =
      (.finished (.error err), (w.startLoad e name r.foreignType id).2) := by
  have hsettled : (w.startLoad e name r.foreignType id).2.loadResult? w.loads.size
      = some (.error err) := by
    rw [startLoad_of_error htype]
    apply loadResult?_eq_some.2
    rw [load?_settleLoad (load?_beginLoad_self ..), if_pos rfl]
    exact ⟨_, rfl, rfl⟩
  have hload : (w.startLoad e name r.foreignType id).1 = w.loads.size := by
    rw [startLoad_of_error htype]
  unfold World.start World.askRelated
  dsimp only
  rw [Entity.relationship_eq_ok.2 hr, hlink, hid]
  dsimp only
  rw [hload, pollJoining_of_result hsettled]
  rfl

/-- Asking for an object that nobody else is waiting for. -/
theorem perform_related_of_failure (hidle : ∀ l, (w.entity e).links.get? name ≠ some (.loading l))
    (h : (w.perform (.related e name)).1.failure? = some err)
    : (w.perform (.related e name)).2.entities = w.entities := by
  unfold perform at h ⊢
  cases hr : (w.entity e).objectType.belongsTo? name with
  | none =>
    have hstart : w.start (.related e name)
        = (.finished (.error (.unknownRelationship (w.entity e).typeName name)), w) := by
      unfold World.start World.askRelated Entity.relationship
      dsimp only
      rw [hr]
    rw [hstart]
    rfl
  | some r =>
  cases hlink : (w.entity e).links.get? name with
  | some link =>
    cases link with
    | loading l => exact absurd hlink (hidle l)
    | resolved target =>
      rw [start_related_of_resolved hr hlink] at h
      cases h
  | none =>
  cases hid : (w.entity e).foreignId? name with
  | none =>
    rw [start_related_of_nothing hr hlink hid] at h
    cases h
  | some id =>
  cases htype : (w.entity e).store.objectType r.foreignType with
  | error err' =>
    rw [start_related_of_unknown_type hr hlink hid htype, startLoad_of_error htype]
    exact entities_settleLoad_of_error hlink (load?_beginLoad_self ..) rfl rfl rfl err'
  | ok objectType =>
    obtain ⟨deadline, hstart⟩ := start_related_of_unknown hr hlink hid htype
    obtain ⟨clock, hdue, hrun⟩ := run_pollJoining (load?_sendLoad_self w e name r.foreignType
      ⟨e, name, (w.entity e).store, objectType, id, .underWay deadline⟩) rfl
    rw [hstart, hrun, pollJoining_of_due hdue] at h ⊢
    dsimp only [Task.failure?] at h
    rw [failure?_map, failure?_eq_some] at h
    dsimp only
    rw [pollLoad_of_due hdue, arriveLoad_eq, h, fetchLoad_of_error h]
    exact entities_settleLoad_of_error hlink hdue.1 rfl rfl rfl err

end World

namespace EntityCall

variable {w : World} {e : EntityRef} {c : EntityCall} {err : StoreError}

theorem entities_make_of_failure
    (hidle : ∀ name, c = .related name → ∀ l, (w.entity e).links.get? name ≠ some (.loading l))
    (h : (c.make w e).1 = some err) : (c.make w e).2.entities = w.entities := by
  cases c with
  | set name v | setRelated name target | setRelatedId name id =>
    exact congrArg World.entities (World.tryModify_of_failure h)
  | hasMany name => exact congrArg World.entities (World.hasMany_of_failure h)
  | copyAs typeName => exact congrArg World.entities (World.copyAs_of_failure h)
  | reload =>
    apply (w.perform_reload_cases e).resolve_left
    intro hdone
    unfold make at h
    rw [hdone] at h
    cases h
  | related name => exact World.perform_related_of_failure (hidle name rfl) h

/-- A call that ends with an error leaves all entities as they were. Of a reload this holds whatever else
happens between its steps: only the step that ends it well changes an entity. -/
theorem failure_changes_nothing (w : World) (e : EntityRef)
    : (∀ (c : EntityCall) (err : StoreError),
        (∀ name, c = .related name → ∀ l, (w.entity e).links.get? name ≠ some (.loading l)) →
          (c.make w e).1 = some err → (c.make w e).2.entities = w.entities)
        ∧
      ((w.start (.reload e)).1 ≠ .finished (.ok .done) →
        (w.start (.reload e)).2.entities = w.entities)
        ∧
      ∀ deadline, (w.poll (.calling (.reload e) deadline)).1 ≠ .finished (.ok .done) →
        (w.poll (.calling (.reload e) deadline)).2.entities = w.entities :=
  ⟨fun _ _ => entities_make_of_failure, (w.start_reload_cases e).resolve_left,
    fun deadline hfailed =>
      congrArg World.entities ((w.poll_reload_cases e deadline).resolve_left hfailed)⟩

/-- The phone is in memory, and the adapter goes offline. Calls take time. -/
def offlineWorld : World :=
  { LinkSession.slowSession.world with
    adapters := #[(LinkSession.phoneAdapter.withLatency 10).setOffline true] }

-- Until the load fails, the phone has a link that waits for it.
theorem offline_room_changes_nothing
    : (make offlineWorld 0 (.related "room")).1 = some (.adapter (.storage "adapter is offline"))
        ∧
      ((offlineWorld.start (.related 0 "room")).2.entity 0).links.get? "room" = some (.loading 0)
        ∧
      (make offlineWorld 0 (.related "room")).2.entities = offlineWorld.entities := by
  have hfailed : (make offlineWorld 0 (.related "room")).1
      = some (.adapter (.storage "adapter is offline")) := rfl
  refine ⟨hfailed, rfl, (failure_changes_nothing offlineWorld 0).1 _ _ ?_ hfailed⟩
  rintro _ ⟨⟩ _
  exact nofun

end EntityCall

end ObjectStore
