import ObjectStore.Proofs.Adapter.Content
import ObjectStore.Proofs.Entity.Links
import ObjectStore.Proofs.World.Frame
import ObjectStore.World.Task

/-!
This module contains coherent worlds, in which every link leads to the object that its foreign id names.
It proves that what is done to entities and to loads keeps a world coherent, and how much of the world
that was there before it can touch.
-/

namespace ObjectStore

namespace Schema

/-- Every type is entered under its own name. -/
def WellNamed (s : Schema) : Prop :=
  ∀ name t, s.get? name = some t → t.name = name

theorem wellNamed_empty : WellNamed .empty := by
  intro name t h
  cases h

theorem WellNamed.addType {s : Schema} (h : s.WellNamed) (t : ObjectType)
    : (s.addType t).WellNamed := by
  intro name t' ht'
  unfold Schema.addType at ht'
  rw [Keyed.get?_insert] at ht'
  split at ht'
  . next hname =>
    cases ht'
    exact hname.symm
  . exact h name t' ht'

theorem WellNamed.name_of_objectType {store : Store} (h : store.schema.WellNamed) {name : String}
    {t : ObjectType} (ht : store.objectType name = .ok t) : t.name = name := by
  unfold Store.objectType at ht
  split at ht
  . next ht' =>
    cases ht
    exact h name t ht'
  . cases ht

end Schema

/-- A load goes on, or its call arrives. -/
structure Load.Continues (load load' : Load) : Prop where
  owner : load'.owner = load.owner
  relation : load'.relation = load.relation
  store : load'.store = load.store
  foreignType : load'.foreignType = load.foreignType
  id : load'.id = load.id
  state : load'.state = load.state
    ∨
    ∃ deadline result, load.state = .underWay deadline ∧ load'.state = .settled result

/-- The load is what a relationship of an entity waits for. -/
structure Load.Serves (load : Load) (e : EntityRef) (x : Entity) (name : String) : Prop where
  owner : load.owner = e
  relation : load.relation = name
  foreignId : x.foreignId? name = some load.id
  foreignType : ∃ r, x.objectType.belongsTo? name = some r ∧ load.foreignType.name = r.foreignType
  underWay : ∃ deadline, load.state = .underWay deadline

namespace World

def nowhere : EntityRef → String → Prop :=
  fun _ _ => False

theorem not_nowhere (e : EntityRef) (name : String) : ¬nowhere e name := id

theorem nowhere_le {links : EntityRef → String → Prop} (e : EntityRef) (name : String)
    (h : nowhere e name) : links e name :=
  absurd h (not_nowhere e name)

/-- The object is the one that a relationship of an entity points at. -/
structure Leads (w : World) (x : Entity) (name : String) (t : EntityRef) : Prop where
  target_lt : t < w.entities.size
  foreignId : x.foreignId? name = some (w.entity t).id
  foreignType : ∃ r, x.objectType.belongsTo? name = some r ∧ (w.entity t).typeName = r.foreignType

/-- An object of a type, by its id. -/
structure Found (w : World) (objectType : ObjectType) (id : String) (t : EntityRef) : Prop where
  lt : t < w.entities.size
  objectType : (w.entity t).objectType = objectType
  id : (w.entity t).id = id

/-- A relationship that waits for nothing, and leads to the right object if it leads anywhere. -/
def Resolves (w : World) (x : Entity) (name : String) : Prop :=
  ∀ link, x.links.get? name = some link →
    ∃ target, link = .resolved target ∧ ∀ t, target = some t → w.Leads x name t

structure LinkSound (w : World) (e : EntityRef) (name : String) : Prop where
  resolved : ∀ t, (w.entity e).links.get? name = some (.resolved (some t)) →
    w.Leads (w.entity e) name t
  loading : ∀ l, (w.entity e).links.get? name = some (.loading l) →
    ∃ load, w.load? l = some load ∧ load.Serves e (w.entity e) name

structure LoadSound (w : World) (load : Load) : Prop where
  owner_lt : load.owner < w.entities.size
  wellNamed : load.store.schema.WellNamed
  found : ∀ t, load.state = .settled (.ok (some t)) → w.Found load.foreignType load.id t

structure Coherent (w : World) : Prop where
  links : ∀ e < w.entities.size, ∀ name, w.LinkSound e name
  loads : ∀ l load, w.load? l = some load → w.LoadSound load
  wellNamed : ∀ e < w.entities.size, (w.entity e).store.schema.WellNamed
  wellKept : ∀ a, (w.adapter a).WellKept

/-- What a change of a world leaves of the world before. Foreign ids and links may only change where
it is allowed, and a link can only begin to wait for a load that is new. New loads are only started for
links that may change. -/
structure Frame (ids links : EntityRef → String → Prop) (w w' : World) : Prop where
  adapters_le : w.adapters.size ≤ w'.adapters.size
  entities_le : w.entities.size ≤ w'.entities.size
  loads_le : w.loads.size ≤ w'.loads.size
  clock_le : w.clock ≤ w'.clock
  identity : ∀ e < w.entities.size, Entity.SameIdentity (w.entity e) (w'.entity e)
  foreignId : ∀ e < w.entities.size, ∀ name, ¬ids e name →
    (w'.entity e).foreignIds.get? name = (w.entity e).foreignIds.get? name
  link : ∀ e < w.entities.size, ∀ name, ¬links e name →
    (w'.entity e).links.get? name = (w.entity e).links.get? name
  begun : ∀ e < w.entities.size, ∀ name l, (w'.entity e).links.get? name = some (.loading l) →
    (w.entity e).links.get? name = some (.loading l) ∨ w.loads.size ≤ l
  loads : ∀ l load, w.load? l = some load → ∃ load', w'.load? l = some load' ∧ load.Continues load'
  started : ∀ l load, w'.load? l = some load → l < w.loads.size ∨ links load.owner load.relation

/-- A change of a coherent world into a coherent one. -/
structure Evolves (ids links : EntityRef → String → Prop) (w w' : World) : Prop
    extends Frame ids links w w' where
  coherent : w'.Coherent

end World

theorem Load.Continues.refl (load : Load) : load.Continues load :=
  ⟨rfl, rfl, rfl, rfl, rfl, .inl rfl⟩

theorem Load.Continues.trans {load load' load'' : Load} (h : load.Continues load')
    (h' : load'.Continues load'') : load.Continues load'' := by
  refine ⟨h'.owner.trans h.owner, h'.relation.trans h.relation, h'.store.trans h.store,
    h'.foreignType.trans h.foreignType, h'.id.trans h.id, ?_⟩
  rcases h'.state with hstate' | ⟨deadline', result', hunder', hsettled'⟩
  . rw [hstate']
    exact h.state
  . rcases h.state with hstate | ⟨deadline, result, hunder, hsettled⟩
    . exact .inr ⟨deadline', result', hstate ▸ hunder', hsettled'⟩
    . rw [hsettled] at hunder'
      cases hunder'

/-- The result of a load is never replaced. -/
theorem Load.Continues.settled {load load' : Load} (h : load.Continues load')
    {result : Except StoreError (Option EntityRef)} (hsettled : load.state = .settled result)
    : load'.state = .settled result := by
  rcases h.state with hstate | ⟨deadline, result, hunder, _⟩
  . rw [hstate, hsettled]
  . rw [hsettled] at hunder
    cases hunder

namespace World

variable {ids links : EntityRef → String → Prop} {w w' w'' : World} {e t : EntityRef} {l : LoadRef}
  {load : Load} {name : String} {x : Entity}

theorem lt_of_load? (hload : w.load? l = some load) : l < w.loads.size := by
  unfold load? at hload
  exact (Array.getElem?_eq_some_iff.1 hload).1

theorem exists_load?_of_lt (hl : l < w.loads.size) : ∃ load, w.load? l = some load :=
  ⟨w.loads[l], Array.getElem?_eq_getElem hl⟩

theorem Frame.refl (w : World) : Frame ids links w w where
  adapters_le := Nat.le_refl _
  entities_le := Nat.le_refl _
  loads_le := Nat.le_refl _
  clock_le := Nat.le_refl _
  identity _ _ := .refl _
  foreignId _ _ _ _ := rfl
  link _ _ _ _ := rfl
  begun _ _ _ _ h := .inl h
  loads _ load h := ⟨load, h, .refl load⟩
  started _ _ h := .inl (lt_of_load? h)

theorem Frame.trans (h : Frame ids links w w') (h' : Frame ids links w' w'')
    : Frame ids links w w'' where
  adapters_le := Nat.le_trans h.adapters_le h'.adapters_le
  entities_le := Nat.le_trans h.entities_le h'.entities_le
  loads_le := Nat.le_trans h.loads_le h'.loads_le
  clock_le := Nat.le_trans h.clock_le h'.clock_le
  identity e he := (h.identity e he).trans (h'.identity e (Nat.lt_of_lt_of_le he h.entities_le))
  foreignId e he name hids :=
    (h'.foreignId e (Nat.lt_of_lt_of_le he h.entities_le) name hids).trans
      (h.foreignId e he name hids)
  link e he name hlinks :=
    (h'.link e (Nat.lt_of_lt_of_le he h.entities_le) name hlinks).trans (h.link e he name hlinks)
  begun e he name l hl := by
    rcases h'.begun e (Nat.lt_of_lt_of_le he h.entities_le) name l hl with hl | hl
    . exact h.begun e he name l hl
    . exact .inr (Nat.le_trans h.loads_le hl)
  loads l load hload := by
    obtain ⟨load', hload', hcontinues⟩ := h.loads l load hload
    obtain ⟨load'', hload'', hcontinues'⟩ := h'.loads l load' hload'
    exact ⟨load'', hload'', hcontinues.trans hcontinues'⟩
  started l load'' hload'' := by
    rcases h'.started l load'' hload'' with hlt | hlinks
    . obtain ⟨load', hload'⟩ := exists_load?_of_lt hlt
      obtain ⟨load, hload, hcontinues⟩ := h'.loads l load' hload'
      rw [hload''] at hload
      cases hload
      rw [hcontinues.owner, hcontinues.relation]
      exact h.started l load' hload'
    . exact .inr hlinks

theorem Frame.mono {ids' links' : EntityRef → String → Prop} (h : Frame ids links w w')
    (hids : ∀ e name, ids e name → ids' e name) (hlinks : ∀ e name, links e name → links' e name)
    : Frame ids' links' w w' :=
  { h with
    foreignId := fun e he name hname => h.foreignId e he name (mt (hids e name) hname)
    link := fun e he name hname => h.link e he name (mt (hlinks e name) hname)
    started := fun l load hload => (h.started l load hload).imp_right (hlinks _ _) }

theorem Evolves.mono {ids' links' : EntityRef → String → Prop} (h : Evolves ids links w w')
    (hids : ∀ e name, ids e name → ids' e name) (hlinks : ∀ e name, links e name → links' e name)
    : Evolves ids' links' w w' :=
  ⟨h.toFrame.mono hids hlinks, h.coherent⟩

/-- A link that does not wait for a load never will, unless the load is new. -/
theorem Frame.not_loading (h : Frame ids links w w') (he : e < w.entities.size)
    (hl : l < w.loads.size) (hne : (w.entity e).links.get? name ≠ some (.loading l))
    : (w'.entity e).links.get? name ≠ some (.loading l) := by
  intro hloading
  rcases h.begun e he name l hloading with hloading | hle
  . exact hne hloading
  . exact absurd hl (Nat.not_lt.2 hle)

theorem Coherent.evolves_refl (h : w.Coherent) : Evolves ids links w w :=
  ⟨.refl w, h⟩

theorem Evolves.trans (h : Evolves ids links w w') (h' : Evolves ids links w' w'')
    : Evolves ids links w w'' :=
  ⟨h.toFrame.trans h'.toFrame, h'.coherent⟩

theorem Frame.found (h : Frame ids links w w') {objectType : ObjectType} {id : String}
    (hfound : w.Found objectType id t) : w'.Found objectType id t := by
  have hidentity := h.identity t hfound.lt
  exact ⟨Nat.lt_of_lt_of_le hfound.lt h.entities_le, hidentity.objectType.trans hfound.objectType,
    hidentity.id.trans hfound.id⟩

theorem Frame.leads (h : Frame ids links w w') (hleads : w.Leads x name t)
    : w'.Leads x name t := by
  have hidentity := h.identity t hleads.target_lt
  constructor
  . exact Nat.lt_of_lt_of_le hleads.target_lt h.entities_le
  . rw [hidentity.id]
    exact hleads.foreignId
  . unfold Entity.typeName
    rw [hidentity.objectType]
    exact hleads.foreignType

theorem Leads.of_same {x' : Entity} (h : w.Leads x name t) (hidentity : Entity.SameIdentity x x')
    (hrelation : Entity.SameRelation x x' name) : w.Leads x' name t := by
  constructor
  . exact h.target_lt
  . rw [Entity.foreignId?_of_sameRelation hrelation]
    exact h.foreignId
  . rw [hidentity.objectType]
    exact h.foreignType

theorem Load.Serves.of_same {x' : Entity} (h : load.Serves e x name)
    (hidentity : Entity.SameIdentity x x') (hrelation : Entity.SameRelation x x' name)
    : load.Serves e x' name := by
  refine ⟨h.owner, h.relation, ?_, ?_, h.underWay⟩
  . rw [Entity.foreignId?_of_sameRelation hrelation]
    exact h.foreignId
  . rw [hidentity.objectType]
    exact h.foreignType

theorem Frame.loadSound (h : Frame ids links w w') (hload : w.LoadSound load)
    : w'.LoadSound load :=
  ⟨Nat.lt_of_lt_of_le hload.owner_lt h.entities_le, hload.wellNamed,
    fun t ht => h.found (hload.found t ht)⟩

theorem Frame.linkSound (h : Frame ids links w w') (he : e < w.entities.size)
    (hsound : w.LinkSound e name) (hrelation : Entity.SameRelation (w.entity e) (w'.entity e) name)
    (hload : ∀ l, (w.entity e).links.get? name = some (.loading l) → w'.load? l = w.load? l)
    : w'.LinkSound e name := by
  have hidentity := h.identity e he
  constructor
  . intro t ht
    rw [hrelation.link] at ht
    exact (h.leads (hsound.resolved t ht)).of_same hidentity hrelation
  . intro l hl
    rw [hrelation.link] at hl
    obtain ⟨load, hload', hserves⟩ := hsound.loading l hl
    exact ⟨load, (hload l hl).trans hload', Load.Serves.of_same hserves hidentity hrelation⟩

theorem Resolves.linkSound (h : w.Resolves (w.entity e) name) : w.LinkSound e name := by
  constructor
  . intro t ht
    obtain ⟨target, htarget, hleads⟩ := h _ ht
    cases htarget
    exact hleads t rfl
  . intro l hl
    obtain ⟨target, htarget, _⟩ := h _ hl
    cases htarget

/-- Nothing happens to the entities and to the loads. -/
theorem Coherent.aside (h : w.Coherent) (hentities : w'.entities = w.entities)
    (hloads : w'.loads = w.loads) (hadapters : w.adapters.size ≤ w'.adapters.size)
    (hclock : w.clock ≤ w'.clock) (hkept : ∀ a, (w'.adapter a).WellKept)
    : Evolves ids links w w' := by
  obtain ⟨adapters, entities, loads, clock, freshIds, warnings⟩ := w
  obtain ⟨adapters', entities', loads', clock', freshIds', warnings'⟩ := w'
  dsimp only at hentities hloads hadapters hclock
  subst hentities hloads
  have hframe : Frame ids links ⟨adapters, entities', loads', clock, freshIds, warnings⟩
      ⟨adapters', entities', loads', clock', freshIds', warnings'⟩ :=
    { Frame.refl ⟨adapters, entities', loads', clock, freshIds, warnings⟩ with
      adapters_le := hadapters
      clock_le := hclock }
  refine ⟨hframe, ?_, ?_, h.wellNamed, hkept⟩
  . intro e he name
    exact hframe.linkSound he (h.links e he name) ⟨rfl, rfl⟩ fun _ _ => rfl
  . intro l load hload
    exact hframe.loadSound (h.loads l load hload)

theorem Coherent.modifyAdapter (h : w.Coherent) (a : AdapterRef) {f : Adapter → Adapter}
    (hkept : (f (w.adapter a)).WellKept) : Evolves ids links w (w.modifyAdapter a f) := by
  refine h.aside rfl rfl (Nat.le_of_eq (w.size_modifyAdapter a f).symm) (Nat.le_refl _) ?_
  intro a'
  by_cases ha : a' = a
  . subst ha
    by_cases hlt : a' < w.adapters.size
    . rw [w.adapter_modifyAdapter_self hlt]
      exact hkept
    . have hsame : (w.modifyAdapter a' f).adapter a' = w.adapter a' := by
        simp [adapter, World.modifyAdapter, hlt]
      rw [hsame]
      exact h.wellKept a'
  . rw [w.adapter_modifyAdapter_of_ne ha]
    exact h.wellKept a'

theorem Coherent.send (h : w.Coherent) (a : AdapterRef) (call : AdapterCall)
    : Evolves ids links w (w.send a call).2 :=
  h.modifyAdapter a (h.wellKept a)

theorem Coherent.warn (h : w.Coherent) (warning : Option ClauseWarning)
    : Evolves ids links w (w.warn warning) :=
  h.aside rfl rfl (Nat.le_refl _) (Nat.le_refl _) h.wellKept

theorem Coherent.takeFreshId (h : w.Coherent) : Evolves ids links w w.takeFreshId.2 :=
  h.aside rfl rfl (Nat.le_refl _) (Nat.le_refl _) h.wellKept

theorem entity_addEntity_of_lt (he : e < w.entities.size)
    : (w.addEntity x).2.entity e = w.entity e := by
  simp [entity, World.addEntity, Array.getElem_push, he, Nat.lt_succ_of_lt he]

@[simp]
theorem entity_addEntity_self (w : World) (x : Entity)
    : (w.addEntity x).2.entity w.entities.size = x := by
  simp [entity, World.addEntity]

@[simp]
theorem size_addEntity (w : World) (x : Entity)
    : (w.addEntity x).2.entities.size = w.entities.size + 1 := by
  simp [World.addEntity]

theorem frame_addEntity (w : World) (x : Entity) : Frame ids links w (w.addEntity x).2 where
  adapters_le := Nat.le_refl _
  entities_le := by simp
  loads_le := Nat.le_refl _
  clock_le := Nat.le_refl _
  identity e he := by
    rw [entity_addEntity_of_lt he]
    exact .refl _
  foreignId e he _ _ := by rw [entity_addEntity_of_lt he]
  link e he _ _ := by rw [entity_addEntity_of_lt he]
  begun e he _ _ h := by
    rw [entity_addEntity_of_lt he] at h
    exact .inl h
  loads _ load h := ⟨load, h, .refl load⟩
  started _ _ h := .inl (lt_of_load? h)

theorem Coherent.addEntity (h : w.Coherent) (hstore : x.store.schema.WellNamed)
    (hlinks : ∀ name, w.Resolves x name) : Evolves ids links w (w.addEntity x).2 := by
  have hframe : Frame ids links w (w.addEntity x).2 := frame_addEntity w x
  have hcases : ∀ e < (w.addEntity x).2.entities.size, e < w.entities.size ∨ e = w.entities.size := by
    intro e he
    rw [size_addEntity] at he
    omega
  refine ⟨hframe, ?_, ?_, ?_, h.wellKept⟩
  . intro e he name
    rcases hcases e he with he | rfl
    . apply hframe.linkSound he (h.links e he name) _ fun _ _ => rfl
      rw [entity_addEntity_of_lt he]
      exact ⟨rfl, rfl⟩
    . apply Resolves.linkSound
      rw [entity_addEntity_self]
      intro link hlink
      obtain ⟨target, htarget, hleads⟩ := hlinks name link hlink
      exact ⟨target, htarget, fun t ht => hframe.leads (hleads t ht)⟩
  . intro l load hload
    exact hframe.loadSound (h.loads l load hload)
  . intro e he
    rcases hcases e he with he | rfl
    . rw [entity_addEntity_of_lt he]
      exact h.wellNamed e he
    . rw [entity_addEntity_self]
      exact hstore

/-- What a change of one entity may do to its relationships: each one stays, or no longer waits for
anything. -/
def Relinks (ids links : EntityRef → String → Prop) (w : World) (e : EntityRef) (x : Entity) : Prop :=
  ∀ name, Entity.SameRelation (w.entity e) x name
    ∨
    links e name
      ∧
    w.Resolves x name
      ∧
    (ids e name ∨ x.foreignIds.get? name = (w.entity e).foreignIds.get? name)

theorem modifyEntity_of_le (he : w.entities.size ≤ e) (f : Entity → Entity)
    : w.modifyEntity e f = w := by
  have hsame : w.entities.modify e f = w.entities := by
    apply Array.ext (by simp)
    intro e' _ he'
    rw [Array.getElem_modify, if_neg (by omega)]
  unfold World.modifyEntity
  rw [hsame]

theorem frame_modifyEntity (he : e < w.entities.size) {f : Entity → Entity}
    (hidentity : Entity.SameIdentity (w.entity e) (f (w.entity e)))
    (hrelinks : Relinks ids links w e (f (w.entity e)))
    : Frame ids links w (w.modifyEntity e f) where
  adapters_le := Nat.le_refl _
  entities_le := Nat.le_of_eq (w.size_modifyEntity e f).symm
  loads_le := Nat.le_refl _
  clock_le := Nat.le_refl _
  identity e' _ := by
    rw [w.entity_modifyEntity e e' f he]
    split
    . next heq =>
      rw [heq]
      exact hidentity
    . exact .refl _
  foreignId e' _ name hids := by
    rw [w.entity_modifyEntity e e' f he]
    split
    . next heq =>
      rw [heq] at hids ⊢
      rcases hrelinks name with hsame | ⟨_, _, hchanged | hsame⟩
      . exact hsame.foreignId
      . exact absurd hchanged hids
      . exact hsame
    . rfl
  link e' _ name hlinks := by
    rw [w.entity_modifyEntity e e' f he]
    split
    . next heq =>
      rw [heq] at hlinks ⊢
      rcases hrelinks name with hsame | ⟨hchanged, _⟩
      . exact hsame.link
      . exact absurd hchanged hlinks
    . rfl
  begun e' _ name l hl := by
    left
    rw [w.entity_modifyEntity e e' f he] at hl
    split at hl
    . next heq =>
      rw [heq]
      rcases hrelinks name with hsame | ⟨_, hresolves, _⟩
      . rw [hsame.link] at hl
        exact hl
      . obtain ⟨target, htarget, _⟩ := hresolves _ hl
        cases htarget
    . exact hl
  loads _ load hload := ⟨load, hload, .refl load⟩
  started _ _ hload := .inl (lt_of_load? hload)

theorem Coherent.modifyEntity (h : w.Coherent) {f : Entity → Entity}
    (hidentity : Entity.SameIdentity (w.entity e) (f (w.entity e)))
    (hrelinks : Relinks ids links w e (f (w.entity e)))
    : Evolves ids links w (w.modifyEntity e f) := by
  by_cases he : w.entities.size ≤ e
  . rw [modifyEntity_of_le he]
    exact h.evolves_refl
  rw [Nat.not_le] at he
  have hframe := frame_modifyEntity he hidentity hrelinks
  refine ⟨hframe, ?_, fun l load hload => hframe.loadSound (h.loads l load hload), ?_, h.wellKept⟩
  . intro e' he' name
    rw [size_modifyEntity] at he'
    by_cases heq : e' = e
    . subst heq
      have hself : (w.modifyEntity e' f).entity e' = f (w.entity e') := by
        rw [w.entity_modifyEntity e' e' f he, if_pos rfl]
      rcases hrelinks name with hsame | ⟨_, hresolves, _⟩
      . rw [← hself] at hsame
        exact hframe.linkSound he' (h.links e' he' name) hsame fun _ _ => rfl
      . apply Resolves.linkSound
        rw [hself]
        intro link hlink
        obtain ⟨target, htarget, hleads⟩ := hresolves link hlink
        exact ⟨target, htarget, fun t ht => hframe.leads (hleads t ht)⟩
    . apply hframe.linkSound he' (h.links e' he' name) _ fun _ _ => rfl
      rw [w.entity_modifyEntity_of_ne heq]
      exact ⟨rfl, rfl⟩
  . intro e' he'
    rw [size_modifyEntity] at he'
    rw [(hframe.identity e' he').store]
    exact h.wellNamed e' he'

theorem Coherent.modifyRelations (h : w.Coherent) {f : Entity → Entity}
    (hsame : Entity.SameRelations (w.entity e) (f (w.entity e)))
    : Evolves ids links w (w.modifyEntity e f) :=
  h.modifyEntity hsame.toSameIdentity fun name => .inl (hsame.sameRelation name)

theorem Coherent.tryModify (h : w.Coherent) {f : Entity → Except StoreError Entity}
    (hf : ∀ x, f (w.entity e) = .ok x →
      Entity.SameIdentity (w.entity e) x ∧ Relinks ids links w e x)
    : Evolves ids links w (w.tryModify e f).2 := by
  unfold World.tryModify
  split
  . next x hx =>
    obtain ⟨hidentity, hrelinks⟩ := hf x hx
    exact h.modifyEntity (f := fun _ => x) hidentity hrelinks
  . exact h.evolves_refl

theorem Coherent.set (h : w.Coherent) (e : EntityRef) (name : String) (v : Value)
    : Evolves ids links w (w.set e name v).2 := by
  apply h.tryModify
  intro x hx
  have hsame := Entity.sameRelations_set hx
  exact ⟨hsame.toSameIdentity, fun name => .inl (hsame.sameRelation name)⟩

theorem Coherent.setRelated (h : w.Coherent) {target : Option EntityRef} (hids : ids e name)
    (hlinks : links e name) (htarget : ∀ t, target = some t → t < w.entities.size)
    : Evolves ids links w (w.setRelated e name target).2 := by
  apply h.tryModify
  intro x hx
  obtain ⟨r, hr, htype, rfl⟩ := Entity.setRelated_eq_ok hx
  refine ⟨⟨rfl, rfl, rfl⟩, ?_⟩
  intro name'
  by_cases hname : name' = name
  . subst hname
    refine .inr ⟨hlinks, ?_, .inl hids⟩
    intro link hlink
    rw [Keyed.get?_insert_self] at hlink
    cases hlink
    refine ⟨_, rfl, ?_⟩
    intro t ht
    cases target with
    | none => cases ht
    | some t' =>
      cases ht
      refine ⟨htarget _ rfl, ?_, r, hr, htype _ _ rfl⟩
      simp [Entity.foreignId?, Entity.identity]
  . left
    constructor <;> simp [Keyed.get?_insert, hname]

theorem Coherent.setRelatedId (h : w.Coherent) {id : Option String} (hids : ids e name)
    (hlinks : links e name) : Evolves ids links w (w.setRelatedId e name id).2 := by
  apply h.tryModify
  intro x hx
  rcases Entity.setRelatedId_eq_ok hx with ⟨_, rfl⟩ | ⟨_, rfl⟩
  . exact ⟨.refl _, fun name' => .inl ⟨rfl, rfl⟩⟩
  . refine ⟨⟨rfl, rfl, rfl⟩, ?_⟩
    intro name'
    by_cases hname : name' = name
    . subst hname
      refine .inr ⟨hlinks, ?_, .inl hids⟩
      intro link hlink
      rw [Keyed.get?_erase_self] at hlink
      cases hlink
    . left
      constructor <;> simp [Keyed.get?_insert, Keyed.get?_erase, hname]

theorem Coherent.hasMany (h : w.Coherent) (e : EntityRef) (name : String)
    : Evolves ids links w (w.hasMany e name).2 := by
  unfold World.hasMany
  split
  . exact h.modifyRelations ⟨⟨rfl, rfl, rfl⟩, rfl, rfl⟩
  . exact h.evolves_refl

theorem resolves_of_links_eq_empty (h : x.links = .empty) (name : String) : w.Resolves x name := by
  intro link hlink
  rw [h] at hlink
  cases hlink

theorem Coherent.create (h : w.Coherent) {store : Store} (hstore : store.schema.WellNamed)
    (typeName : String) : Evolves ids links w (w.create store typeName).2 := by
  unfold World.create
  split
  . exact h.evolves_refl
  . have hfresh : Evolves ids links w w.takeFreshId.2 := h.takeFreshId
    exact hfresh.trans (hfresh.coherent.addEntity hstore (resolves_of_links_eq_empty rfl))

theorem hydrate_cases (w : World) (store : Store) (objectType : ObjectType) (r : Record)
    : (∃ err, w.hydrate store objectType r = (.error err, w))
        ∨
      ∃ x, w.hydrate store objectType r = (.ok w.entities.size, (w.addEntity x).2)
        ∧
      x.id = r.id
        ∧
      x.objectType = objectType
        ∧
      x.store = store
        ∧
      x.links = .empty := by
  unfold World.hydrate
  split
  . exact .inl ⟨_, rfl⟩
  . next x hx =>
    unfold Entity.hydrate at hx
    split at hx
    . cases hx
      exact .inr ⟨_, rfl, rfl, rfl, rfl, rfl⟩
    . cases hx

theorem hydrate?_aside (w : World) (store : Store) (objectType : ObjectType) (r : Option Record)
    : (w.hydrate? store objectType r).2.loads = w.loads
        ∧
      (w.hydrate? store objectType r).2.adapters = w.adapters
        ∧
      (w.hydrate? store objectType r).2.clock = w.clock := by
  cases r with
  | none => exact ⟨rfl, rfl, rfl⟩
  | some r =>
    unfold World.hydrate?
    dsimp only
    rcases w.hydrate_cases store objectType r with ⟨err, herr⟩ | ⟨x, hx, _⟩
    . rw [herr]
      exact ⟨rfl, rfl, rfl⟩
    . rw [hx]
      exact ⟨rfl, rfl, rfl⟩

theorem entity_hydrate?_of_lt (he : e < w.entities.size) (store : Store) (objectType : ObjectType)
    (r : Option Record) : (w.hydrate? store objectType r).2.entity e = w.entity e := by
  cases r with
  | none => rfl
  | some r =>
    unfold World.hydrate?
    dsimp only
    rcases w.hydrate_cases store objectType r with ⟨err, herr⟩ | ⟨x, hx, _⟩
    . rw [herr]
    . rw [hx]
      exact entity_addEntity_of_lt he

/-- New objects of a type come to a coherent world. -/
theorem Coherent.hydrate (h : w.Coherent) {store : Store} (hstore : store.schema.WellNamed)
    (objectType : ObjectType) (r : Record)
    : Evolves ids links w (w.hydrate store objectType r).2
        ∧
      ∀ t, (w.hydrate store objectType r).1 = .ok t →
        w.entities.size ≤ t ∧ (w.hydrate store objectType r).2.Found objectType r.id t := by
  rcases w.hydrate_cases store objectType r with ⟨err, herr⟩ | ⟨x, hx, hid, htype, hxstore, hxlinks⟩
  . rw [herr]
    exact ⟨h.evolves_refl, nofun⟩
  . rw [hx]
    refine ⟨h.addEntity (hxstore ▸ hstore) (resolves_of_links_eq_empty hxlinks), ?_⟩
    intro t ht
    cases ht
    refine ⟨Nat.le_refl _, ?_, ?_, ?_⟩
    . simp
    . rw [entity_addEntity_self]
      exact htype
    . rw [entity_addEntity_self]
      exact hid

theorem Coherent.hydrate? (h : w.Coherent) {store : Store} (hstore : store.schema.WellNamed)
    (objectType : ObjectType) (r : Option Record)
    : Evolves ids links w (w.hydrate? store objectType r).2
        ∧
      ∀ t, (w.hydrate? store objectType r).1 = .ok (some t) →
        ∃ r', r = some r'
          ∧
        w.entities.size ≤ t
          ∧
        (w.hydrate? store objectType r).2.Found objectType r'.id t := by
  cases r with
  | none => exact ⟨h.evolves_refl, nofun⟩
  | some r =>
    obtain ⟨hevolves, hfound⟩ : Evolves ids links w _ ∧ _ := h.hydrate hstore objectType r
    unfold World.hydrate?
    dsimp only
    cases heq : w.hydrate store objectType r with | mk result w' =>
    rw [heq] at hevolves hfound
    cases result with
    | ok t =>
      refine ⟨hevolves, ?_⟩
      intro t' ht'
      cases ht'
      exact ⟨r, rfl, hfound t rfl⟩
    | error err => exact ⟨hevolves, nofun⟩

theorem Coherent.hydrateAll (h : w.Coherent) {store : Store} (hstore : store.schema.WellNamed)
    (objectType : ObjectType) (rs : List (Option Record))
    : Evolves ids links w (w.hydrateAll store objectType rs).2
        ∧
      ∀ es, (w.hydrateAll store objectType rs).1 = .ok es → ∀ t, some t ∈ es →
        w.entities.size ≤ t ∧ ∃ id, (w.hydrateAll store objectType rs).2.Found objectType id t := by
  induction rs generalizing w with
  | nil =>
    refine ⟨h.evolves_refl, ?_⟩
    intro es hes t ht
    cases hes
    cases ht
  | cons r rs ih =>
    obtain ⟨hfirst, hfound⟩ : Evolves ids links w _ ∧ _ := h.hydrate? hstore objectType r
    unfold World.hydrateAll
    cases heq : w.hydrate? store objectType r with | mk result w' =>
    rw [heq] at hfirst hfound
    cases result with
    | error err => exact ⟨hfirst, nofun⟩
    | ok t =>
      obtain ⟨hrest, hfound'⟩ := ih hfirst.coherent
      dsimp only at hfound ⊢
      cases heq' : w'.hydrateAll store objectType rs with | mk result' w'' =>
      rw [heq'] at hrest hfound'
      cases result' with
      | error err => exact ⟨hfirst.trans hrest, nofun⟩
      | ok es =>
        refine ⟨hfirst.trans hrest, ?_⟩
        intro es' hes' t' ht'
        cases hes'
        rcases List.mem_cons.1 ht' with rfl | ht'
        . obtain ⟨r', _, hle, hfound⟩ := hfound t' rfl
          exact ⟨hle, r'.id, hrest.toFrame.found hfound⟩
        . obtain ⟨hle, hid⟩ := hfound' es rfl t' ht'
          exact ⟨Nat.le_trans hfirst.entities_le hle, hid⟩

theorem Coherent.build (h : w.Coherent) {store : Store} (hstore : store.schema.WellNamed)
    (r : Record) : Evolves ids links w (w.build store r).2 := by
  unfold World.build
  split
  . exact h.evolves_refl
  . exact (h.hydrate hstore _ r).1

theorem Coherent.copyAs (h : w.Coherent) (he : e < w.entities.size) (typeName : Option String)
    : Evolves ids links w (w.copyAs e typeName).2 := by
  unfold World.copyAs
  dsimp only
  split
  . exact h.evolves_refl
  . split
    . exact h.evolves_refl
    . next hcopy =>
      obtain ⟨htype, hstore, hlinks⟩ := Entity.copyAs_eq_ok hcopy
      have hnumbered : Evolves ids links w
          (if (w.entity e).persisted then w else w.takeFreshId.2) := by
        split
        . exact h.evolves_refl
        . exact h.takeFreshId
      apply hnumbered.trans
      apply hnumbered.coherent.addEntity
      . rw [hstore]
        exact h.wellNamed e he
      . intro name link hlink
        obtain ⟨hsource, ⟨known, hknown⟩, hid, r, own, hr, hown, hsame⟩ := hlinks name link hlink
        refine ⟨known, hknown, ?_⟩
        rintro t rfl
        rw [hknown] at hsource
        have hleads := (h.links e he name).resolved t hsource
        apply hnumbered.toFrame.leads
        refine ⟨hleads.target_lt, hid.trans hleads.foreignId, r, ?_, ?_⟩
        . rw [htype]
          exact hr
        . obtain ⟨own', hown', htarget⟩ := hleads.foreignType
          rw [hown] at hown'
          cases hown'
          rw [htarget, hsame]

theorem Coherent.reloadWith (h : w.Coherent) (hids : ∀ name, ids e name)
    (hlinks : ∀ name, links e name) (r : Option Record)
    : Evolves ids links w (w.reloadWith e r).2 := by
  cases r with
  | none => exact h.evolves_refl
  | some r =>
    apply h.tryModify
    intro x hx
    obtain ⟨hidentity, hrelations⟩ := Entity.rehydrate_eq_ok hx
    refine ⟨hidentity, ?_⟩
    intro name
    have hrelation := hrelations name
    split at hrelation
    . refine .inr ⟨hlinks name, ?_, .inl (hids name)⟩
      intro link hlink
      rw [hrelation] at hlink
      cases hlink
    . exact .inl hrelation

end World

end ObjectStore
