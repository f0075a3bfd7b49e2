import ObjectStore.Proofs.World.Coherence

/-!
This module proves that loads keep a world coherent: whatever happens while one is under way, its result
goes into the link that waits for it, and into no other one.
-/

namespace ObjectStore

theorem Adapter.id_handOut (a : Adapter) (r : Record) : (a.handOut r).id = r.id := by
  unfold Adapter.handOut
  split <;> rfl

theorem Adapter.WellKept.id_of_get {a : Adapter} (h : a.WellKept) {typeName id : String} {r : Record}
    (hget : a.get typeName id = .ok (some r)) : r.id = id := by
  unfold Adapter.get at hget
  obtain ⟨_, _, hget⟩ := bind_eq_ok.1 hget
  injection hget with hget
  obtain ⟨stored, hstored, rfl⟩ := Option.map_eq_some_iff.1 hget
  rw [Adapter.id_handOut]
  exact (h typeName id stored hstored).2

namespace World

variable {ids links : EntityRef → String → Prop} {w w' : World} {e e' t : EntityRef} {l l' : LoadRef}
  {load : Load} {name foreignType : String} {x : Entity}
  {result : Except StoreError (Option EntityRef)} {deadline : Nat}

/-- The part of a settled load that the entities do not see. -/
def recordResult (w : World) (l : LoadRef) (result : Except StoreError (Option EntityRef)) : World :=
  { w with loads := w.loads.modify l fun load => { load with state := .settled result } }

theorem load?_recordResult (hload : w.load? l = some load) (l' : LoadRef)
    : (w.recordResult l result).load? l'
        =
      if l' = l then some { load with state := .settled result } else w.load? l' := by
  unfold recordResult
  unfold load? at hload ⊢
  dsimp only
  rw [Array.getElem?_modify]
  by_cases heq : l = l'
  . subst heq
    rw [if_pos rfl, if_pos rfl, hload]
    rfl
  . rw [if_neg heq, if_neg (Ne.symm heq)]

theorem settleLoad_eq (hload : w.load? l = some load)
    : w.settleLoad l result
        =
      (w.modifyEntity load.owner fun x => x.finishLoad load.relation l result).recordResult l
        result := by
  unfold settleLoad
  rw [hload]
  rfl

theorem load?_settleLoad (hload : w.load? l = some load) (l' : LoadRef)
    : (w.settleLoad l result).load? l'
        =
      if l' = l then some { load with state := .settled result } else w.load? l' := by
  rw [settleLoad_eq hload]
  exact load?_recordResult hload l'

theorem entity_settleLoad (hload : w.load? l = some load) (e : EntityRef)
    : (w.settleLoad l result).entity e
        =
      (w.modifyEntity load.owner fun x => x.finishLoad load.relation l result).entity e := by
  rw [settleLoad_eq hload]
  rfl

/-- The result of a load that no link waits for changes no entity. -/
theorem entity_settleLoad_of_ne (hload : w.load? l = some load)
    (hlink : (w.entity load.owner).links.get? load.relation ≠ some (.loading l)) (e : EntityRef)
    : (w.settleLoad l result).entity e = w.entity e := by
  rw [entity_settleLoad hload]
  by_cases he : e = load.owner
  . subst he
    by_cases hlt : load.owner < w.entities.size
    . rw [w.entity_modifyEntity _ _ _ hlt, if_pos rfl, Entity.finishLoad_of_ne hlink]
    . rw [modifyEntity_of_le (Nat.not_lt.1 hlt)]
  . rw [w.entity_modifyEntity_of_ne he]

theorem Coherent.relinks_finishLoad (h : w.Coherent) (hload : w.load? l = some load)
    (hfound : ∀ t, result = .ok (some t) → w.Found load.foreignType load.id t)
    (hlinks : (w.entity load.owner).links.get? load.relation = some (.loading l) →
      links load.owner load.relation)
    : Relinks ids links w load.owner
        ((w.entity load.owner).finishLoad load.relation l result) := by
  intro name
  rcases (w.entity load.owner).finishLoad_cases load.relation l result name with
    hsame | ⟨rfl, hloading, hid, hlink⟩
  . exact .inl hsame
  . refine .inr ⟨hlinks hloading, ?_, .inr hid⟩
    intro link hlink'
    rw [hlink] at hlink'
    cases result with
    | error err => cases hlink'
    | ok target =>
      cases hlink'
      refine ⟨target, rfl, ?_⟩
      rintro t rfl
      have howner := (h.loads l load hload).owner_lt
      obtain ⟨load', hload', hserves⟩ := (h.links _ howner _).loading l hloading
      rw [hload] at hload'
      cases hload'
      have hidentity := Entity.sameIdentity_finishLoad (w.entity load.owner) load.relation l
        (.ok (some t))
      have ht := hfound t rfl
      obtain ⟨r, hr, htype⟩ := hserves.foreignType
      refine ⟨ht.lt, ?_, r, ?_, ?_⟩
      . unfold Entity.foreignId?
        rw [hid, ht.id]
        exact hserves.foreignId
      . rw [hidentity.objectType]
        exact hr
      . unfold Entity.typeName
        rw [ht.objectType, htype]

/-- A load that no link waits for gets its result. -/
theorem Coherent.recordResult (h : w.Coherent) (hload : w.load? l = some load)
    (hunder : load.state = .underWay deadline)
    (hfound : ∀ t, result = .ok (some t) → w.Found load.foreignType load.id t)
    (hidle : ∀ e < w.entities.size, ∀ name, (w.entity e).links.get? name ≠ some (.loading l))
    : Evolves ids links w (w.recordResult l result) := by
  have hframe : Frame ids links w (w.recordResult l result) := by
    refine { Frame.refl w with loads_le := ?_, loads := ?_, started := ?_ }
    . simp [World.recordResult]
    . intro l' load' hload'
      rw [load?_recordResult hload]
      split
      . next heq =>
        rw [heq, hload] at hload'
        cases hload'
        exact ⟨_, rfl, rfl, rfl, rfl, rfl, rfl, .inr ⟨deadline, result, hunder, rfl⟩⟩
      . exact ⟨load', hload', .refl load'⟩
    . intro l' load' hload'
      left
      have hlt := lt_of_load? hload'
      unfold World.recordResult at hlt
      rw [Array.size_modify] at hlt
      exact hlt
  refine ⟨hframe, ?_, ?_, h.wellNamed, h.wellKept⟩
  . intro e he name
    apply hframe.linkSound he (h.links e he name) ⟨rfl, rfl⟩
    intro l' hl'
    rw [load?_recordResult hload, if_neg]
    rintro rfl
    exact hidle e he name hl'
  . intro l' load' hload'
    rw [load?_recordResult hload] at hload'
    split at hload'
    . cases hload'
      have hsound := h.loads l load hload
      refine ⟨hsound.owner_lt, hsound.wellNamed, ?_⟩
      intro t ht
      cases ht
      exact hframe.found (hfound t rfl)
    . exact hframe.loadSound (h.loads l' load' hload')

theorem Coherent.settleLoad (h : w.Coherent) (hload : w.load? l = some load)
    (hunder : load.state = .underWay deadline)
    (hfound : ∀ t, result = .ok (some t) → w.Found load.foreignType load.id t)
    (hlinks : (w.entity load.owner).links.get? load.relation = some (.loading l) →
      links load.owner load.relation)
    : Evolves ids links w (w.settleLoad l result) := by
  have hrelinked : Evolves ids links w
      (w.modifyEntity load.owner fun x => x.finishLoad load.relation l result) :=
    h.modifyEntity (Entity.sameIdentity_finishLoad ..) (h.relinks_finishLoad hload hfound hlinks)
  rw [settleLoad_eq hload]
  apply hrelinked.trans
  apply hrelinked.coherent.recordResult hload hunder
  . intro t ht
    exact hrelinked.toFrame.found (hfound t ht)
  -- Only the owner could wait for the load, and it has just taken the result.
  . intro e he name hloading
    obtain ⟨load', hload', hserves⟩ := (hrelinked.coherent.links e he name).loading l hloading
    change w.load? l = some load' at hload'
    rw [hload] at hload'
    cases hload'
    obtain ⟨rfl, rfl, _⟩ := hserves
    rw [size_modifyEntity] at he
    rw [w.entity_modifyEntity _ _ _ he, if_pos rfl] at hloading
    exact Entity.link_finishLoad_ne _ _ _ _ hloading

/-- The call of a load arrives, and the record becomes an entity. -/
def fetchLoad (w : World) (load : Load) : Except StoreError (Option EntityRef) × World :=
  match (w.adapter load.store.adapter).get load.foreignType.name load.id with
  | .error e => (.error (.adapter e), w)
  | .ok r => w.hydrate? load.store load.foreignType r

theorem arriveLoad_eq (w : World) (l : LoadRef) (load : Load)
    : w.arriveLoad l load = (w.fetchLoad load).2.settleLoad l (w.fetchLoad load).1 := by
  unfold arriveLoad fetchLoad
  cases (w.adapter load.store.adapter).get load.foreignType.name load.id <;> rfl

theorem fetchLoad_aside (w : World) (load : Load)
    : (w.fetchLoad load).2.loads = w.loads
        ∧
      (w.fetchLoad load).2.adapters = w.adapters
        ∧
      (w.fetchLoad load).2.clock = w.clock := by
  unfold fetchLoad
  split
  . exact ⟨rfl, rfl, rfl⟩
  . exact w.hydrate?_aside load.store load.foreignType _

theorem entity_fetchLoad_of_lt (he : e < w.entities.size) (load : Load)
    : (w.fetchLoad load).2.entity e = w.entity e := by
  unfold fetchLoad
  split
  . rfl
  . exact entity_hydrate?_of_lt he load.store load.foreignType _

theorem load?_fetchLoad (w : World) (load : Load) (l : LoadRef)
    : (w.fetchLoad load).2.load? l = w.load? l := by
  unfold load?
  rw [(w.fetchLoad_aside load).1]

theorem Coherent.fetchLoad (h : w.Coherent) (hload : w.load? l = some load)
    : Evolves ids links w (w.fetchLoad load).2
        ∧
      ∀ t, (w.fetchLoad load).1 = .ok (some t) →
        (w.fetchLoad load).2.Found load.foreignType load.id t := by
  unfold World.fetchLoad
  split
  . exact ⟨h.evolves_refl, nofun⟩
  . next r hget =>
    obtain ⟨hevolves, hfound⟩ : Evolves ids links w _ ∧ _ :=
      h.hydrate? (h.loads l load hload).wellNamed load.foreignType r
    refine ⟨hevolves, ?_⟩
    intro t ht
    obtain ⟨r', rfl, _, hfound⟩ := hfound t ht
    rw [← (h.wellKept load.store.adapter).id_of_get hget]
    exact hfound

/-- The load is under way, and its call has arrived. -/
def Due (w : World) (l : LoadRef) (load : Load) : Prop :=
  w.load? l = some load ∧ ∃ deadline ≤ w.clock, load.state = .underWay deadline

theorem pollLoad_of_not_due (h : ∀ load, ¬w.Due l load) : w.pollLoad l = w := by
  unfold pollLoad
  split
  . next load hload =>
    split
    . next deadline hunder =>
      rw [if_neg]
      intro hle
      exact h load ⟨hload, deadline, hle, hunder⟩
    . rfl
  . rfl

theorem pollLoad_of_due (h : w.Due l load) : w.pollLoad l = w.arriveLoad l load := by
  obtain ⟨hload, deadline, hle, hunder⟩ := h
  unfold pollLoad
  rw [hload]
  dsimp only
  rw [hunder]
  exact if_pos hle

theorem load?_pollLoad_of_due (h : w.Due l load) (l' : LoadRef)
    : (w.pollLoad l).load? l'
        =
      if l' = l then some { load with state := .settled (w.fetchLoad load).1 } else w.load? l' := by
  rw [pollLoad_of_due h, arriveLoad_eq, load?_settleLoad ((w.load?_fetchLoad load l).trans h.1),
    load?_fetchLoad]

theorem loadResult?_eq_some
    : w.loadResult? l = some result ↔ ∃ load, w.load? l = some load ∧ load.state = .settled result := by
  unfold loadResult?
  cases hload : w.load? l with
  | none => simp
  | some load => cases hstate : load.state <;> simp [hstate]

theorem loadResult?_pollLoad_of_due (h : w.Due l load)
    : (w.pollLoad l).loadResult? l = some (w.fetchLoad load).1 := by
  rw [loadResult?_eq_some, load?_pollLoad_of_due h, if_pos rfl]
  exact ⟨_, rfl, rfl⟩

theorem pollLoad_of_result (h : w.loadResult? l = some result) : w.pollLoad l = w := by
  obtain ⟨load, hload, hsettled⟩ := loadResult?_eq_some.1 h
  apply pollLoad_of_not_due
  rintro load' ⟨hload', deadline, _, hunder⟩
  rw [hload] at hload'
  cases hload'
  rw [hsettled] at hunder
  cases hunder

/-- A load that its link does not wait for any more comes to its end without a trace in the entities. -/
theorem entity_pollLoad_of_ne (he : e < w.entities.size) (howner : load.owner < w.entities.size)
    (hload : w.load? l = some load)
    (hlink : (w.entity load.owner).links.get? load.relation ≠ some (.loading l))
    : (w.pollLoad l).entity e = w.entity e := by
  by_cases hdue : w.Due l load
  . rw [pollLoad_of_due hdue, arriveLoad_eq,
      entity_settleLoad_of_ne ((w.load?_fetchLoad load l).trans hload)]
    . exact entity_fetchLoad_of_lt he load
    . rw [entity_fetchLoad_of_lt howner]
      exact hlink
  . rw [pollLoad_of_not_due]
    rintro load' hdue'
    have hload' := hdue'.1
    rw [hload] at hload'
    cases hload'
    exact hdue hdue'

theorem Coherent.pollLoad (h : w.Coherent)
    (hlinks : ∀ load, w.load? l = some load →
      (w.entity load.owner).links.get? load.relation = some (.loading l) →
        links load.owner load.relation)
    : Evolves ids links w (w.pollLoad l) := by
  by_cases hdue : ∃ load, w.Due l load
  . obtain ⟨load, hdue⟩ := hdue
    rw [pollLoad_of_due hdue, arriveLoad_eq]
    obtain ⟨hload, deadline, _, hunder⟩ := hdue
    obtain ⟨hevolves, hfound⟩ : Evolves nowhere nowhere w _ ∧ _ := h.fetchLoad hload
    have howner := (h.loads l load hload).owner_lt
    apply (hevolves.mono nofun nofun).trans
    apply hevolves.coherent.settleLoad ((w.load?_fetchLoad load l).trans hload) hunder hfound
    intro hloading
    rw [hevolves.link _ howner _ nofun] at hloading
    exact hlinks load hload hloading
  . rw [pollLoad_of_not_due (not_exists.1 hdue)]
    exact h.evolves_refl

/-- The link that waits for the load takes its result. -/
theorem Coherent.link_pollLoad_of_due (h : w.Coherent) (hdue : w.Due l load)
    (hlink : (w.entity load.owner).links.get? load.relation = some (.loading l))
    : ((w.pollLoad l).entity load.owner).links.get? load.relation
        =
      (w.fetchLoad load).1.toOption.map Link.resolved := by
  have howner := (h.loads l load hdue.1).owner_lt
  have hfetched : Evolves nowhere nowhere w _ := (h.fetchLoad hdue.1).1
  rw [pollLoad_of_due hdue, arriveLoad_eq,
    entity_settleLoad ((w.load?_fetchLoad load l).trans hdue.1),
    entity_modifyEntity _ _ _ _ (Nat.lt_of_lt_of_le howner hfetched.entities_le), if_pos rfl,
    entity_fetchLoad_of_lt howner]
  exact Entity.link_finishLoad hlink

/-- A link begins to wait for a new load. -/
def beginLoad (w : World) (e : EntityRef) (name : String) (load : Load) : World :=
  { w.modifyEntity e fun x => x.setLink name (.loading w.loads.size) with
    loads := w.loads.push load }

theorem load?_beginLoad_of_lt (hl : l < w.loads.size) (e : EntityRef) (name : String) (load : Load)
    : (w.beginLoad e name load).load? l = w.load? l := by
  unfold load? beginLoad
  dsimp only
  rw [Array.getElem?_push, if_neg (Nat.ne_of_lt hl)]

theorem load?_beginLoad_self (w : World) (e : EntityRef) (name : String) (load : Load)
    : (w.beginLoad e name load).load? w.loads.size = some load := by
  unfold load? beginLoad
  simp

theorem load?_beginLoad_cases {load' : Load} (hload : (w.beginLoad e name load).load? l = some load')
    : w.load? l = some load' ∨ l = w.loads.size ∧ load' = load := by
  unfold load? beginLoad at hload
  dsimp only at hload
  rw [Array.getElem?_push] at hload
  split at hload
  . next hl =>
    cases hload
    exact .inr ⟨hl, rfl⟩
  . exact .inl hload

theorem entity_beginLoad (he : e < w.entities.size) (name : String) (load : Load) (e' : EntityRef)
    : (w.beginLoad e name load).entity e'
        =
      if e' = e then (w.entity e).setLink name (.loading w.loads.size) else w.entity e' :=
  w.entity_modifyEntity e e' _ he

theorem link_beginLoad_self (he : e < w.entities.size) (name : String) (load : Load)
    : ((w.beginLoad e name load).entity e).links.get? name = some (.loading w.loads.size) := by
  rw [entity_beginLoad he, if_pos rfl]
  simp [Entity.setLink]

theorem sameRelation_beginLoad (he : e < w.entities.size) (load : Load) {name' : String}
    (hne : e' = e → name' ≠ name)
    : Entity.SameRelation (w.entity e') ((w.beginLoad e name load).entity e') name' := by
  rw [entity_beginLoad he]
  split
  . next heq =>
    rw [heq]
    exact ⟨by simp [Entity.setLink, Keyed.get?_insert, hne heq], rfl⟩
  . exact ⟨rfl, rfl⟩

theorem frame_beginLoad (he : e < w.entities.size) (hserves : load.Serves e (w.entity e) name)
    (hlinks : links e name) : Frame ids links w (w.beginLoad e name load) where
  adapters_le := Nat.le_refl _
  entities_le := Nat.le_of_eq (w.size_modifyEntity e _).symm
  loads_le := by simp [World.beginLoad]
  clock_le := Nat.le_refl _
  identity e' _ := by
    rw [entity_beginLoad he]
    split
    . next heq =>
      rw [heq]
      exact ⟨rfl, rfl, rfl⟩
    . exact .refl _
  foreignId e' _ name' _ := by
    rw [entity_beginLoad he]
    split
    . next heq =>
      rw [heq]
      rfl
    . rfl
  link e' _ name' hname' := by
    apply (sameRelation_beginLoad he load _).link
    rintro rfl rfl
    exact hname' hlinks
  begun e' _ name' l hl := by
    by_cases hthis : e' = e ∧ name' = name
    . obtain ⟨rfl, rfl⟩ := hthis
      rw [link_beginLoad_self he] at hl
      cases hl
      exact .inr (Nat.le_refl _)
    . rw [(sameRelation_beginLoad he load fun heq hname => hthis ⟨heq, hname⟩).link] at hl
      exact .inl hl
  loads l load' hload' := by
    refine ⟨load', ?_, .refl load'⟩
    rw [load?_beginLoad_of_lt (lt_of_load? hload')]
    exact hload'
  started l load' hload' := by
    rcases load?_beginLoad_cases hload' with hload' | ⟨_, rfl⟩
    . exact .inl (lt_of_load? hload')
    . rw [hserves.owner, hserves.relation]
      exact .inr hlinks

theorem Coherent.beginLoad (h : w.Coherent) (he : e < w.entities.size)
    (hserves : load.Serves e (w.entity e) name) (hstore : load.store.schema.WellNamed)
    (hlinks : links e name) : Evolves ids links w (w.beginLoad e name load) := by
  have hframe : Frame ids links w (w.beginLoad e name load) := frame_beginLoad he hserves hlinks
  have hsize : (w.beginLoad e name load).entities.size = w.entities.size := w.size_modifyEntity e _
  refine ⟨hframe, ?_, ?_, ?_, h.wellKept⟩
  . intro e' he' name'
    rw [hsize] at he'
    by_cases hthis : e' = e ∧ name' = name
    . obtain ⟨rfl, rfl⟩ := hthis
      have hlink := link_beginLoad_self he name' load
      constructor
      . intro t ht
        rw [hlink] at ht
        cases ht
      . intro l hl
        rw [hlink] at hl
        cases hl
        refine ⟨load, load?_beginLoad_self .., hserves.owner, hserves.relation, ?_, ?_,
          hserves.underWay⟩
        . rw [entity_beginLoad he, if_pos rfl]
          exact hserves.foreignId
        . rw [entity_beginLoad he, if_pos rfl]
          exact hserves.foreignType
    . apply hframe.linkSound he' (h.links e' he' name')
        (sameRelation_beginLoad he load fun heq hname => hthis ⟨heq, hname⟩)
      intro l hl
      obtain ⟨load', hload', _⟩ := (h.links e' he' name').loading l hl
      exact load?_beginLoad_of_lt (lt_of_load? hload') e name load
  . intro l load' hload'
    rcases load?_beginLoad_cases hload' with hload' | ⟨_, rfl⟩
    . exact hframe.loadSound (h.loads l load' hload')
    . refine ⟨?_, hstore, ?_⟩
      . rw [hserves.owner]
        exact Nat.lt_of_lt_of_le he hframe.entities_le
      . intro t ht
        obtain ⟨deadline, hunder⟩ := hserves.underWay
        rw [hunder] at ht
        cases ht
  . intro e' he'
    rw [hsize] at he'
    rw [(hframe.identity e' he').store]
    exact h.wellNamed e' he'

theorem startLoad_of_error {foreignType id : String} {err : StoreError}
    (htype : (w.entity e).store.objectType foreignType = .error err)
    : w.startLoad e name foreignType id
        =
      (w.loads.size,
        (w.beginLoad e name
          ⟨e, name, (w.entity e).store, .ofName foreignType, id, .underWay 0⟩).settleLoad
            w.loads.size (.error err)) := by
  unfold startLoad
  dsimp only
  rw [htype]
  rfl

/-- A new load whose call was sent. -/
def sendLoad (w : World) (e : EntityRef) (name foreignType : String) (load : Load) : World :=
  (w.beginLoad e name load).modifyAdapter load.store.adapter fun a =>
    a.noteCall (.get foreignType load.id)

theorem startLoad_of_ok {foreignType : String} (name id : String) {objectType : ObjectType}
    (htype : (w.entity e).store.objectType foreignType = .ok objectType)
    : ∃ deadline, w.startLoad e name foreignType id
        =
      (w.loads.size,
        (w.sendLoad e name foreignType
          ⟨e, name, (w.entity e).store, objectType, id, .underWay deadline⟩).pollLoad
            w.loads.size) := by
  unfold startLoad
  dsimp only
  rw [htype]
  exact ⟨_, rfl⟩

theorem load?_sendLoad_self (w : World) (e : EntityRef) (name foreignType : String) (load : Load)
    : (w.sendLoad e name foreignType load).load? w.loads.size = some load :=
  load?_beginLoad_self w e name load

theorem Coherent.sendLoad (h : w.Coherent) (he : e < w.entities.size)
    (hserves : load.Serves e (w.entity e) name) (hstore : load.store.schema.WellNamed)
    (hlinks : links e name) (foreignType : String)
    : Evolves ids links w (w.sendLoad e name foreignType load) := by
  have hbegun : Evolves ids links w (w.beginLoad e name load) :=
    h.beginLoad he hserves hstore hlinks
  exact hbegun.trans (hbegun.coherent.modifyAdapter _ (hbegun.coherent.wellKept _))

/-- Of a new load only the link is touched that waits for it. -/
theorem Coherent.pollLoad_of_sent (h : (w.sendLoad e name foreignType load).Coherent)
    (hserves : load.Serves e x name) (hlinks : links e name)
    : Evolves ids links (w.sendLoad e name foreignType load)
        ((w.sendLoad e name foreignType load).pollLoad w.loads.size) := by
  apply h.pollLoad
  intro load' hload' _
  rw [load?_sendLoad_self] at hload'
  cases hload'
  rw [hserves.owner, hserves.relation]
  exact hlinks

theorem serves_of_objectType (h : w.Coherent) (he : e < w.entities.size) {r : Relationship}
    {id : String} {objectType : ObjectType} (hr : (w.entity e).objectType.belongsTo? name = some r)
    (hid : (w.entity e).foreignId? name = some id)
    (htype : (w.entity e).store.objectType r.foreignType = .ok objectType) (deadline : Nat)
    : (⟨e, name, (w.entity e).store, objectType, id, .underWay deadline⟩ : Load).Serves e
        (w.entity e) name :=
  ⟨rfl, rfl, hid, ⟨r, hr, (h.wellNamed e he).name_of_objectType htype⟩, deadline, rfl⟩

/-- The link waits for a new load, and if its call does not take time, the load has already got its
result. -/
theorem Coherent.startLoad (h : w.Coherent) (he : e < w.entities.size) {r : Relationship} {id : String}
    (hr : (w.entity e).objectType.belongsTo? name = some r)
    (hid : (w.entity e).foreignId? name = some id) (hlinks : links e name)
    : Evolves ids links w (w.startLoad e name r.foreignType id).2 := by
  have hstore := h.wellNamed e he
  cases htype : (w.entity e).store.objectType r.foreignType with
  | error err =>
    rw [startLoad_of_error htype]
    have hserves : (⟨e, name, (w.entity e).store, .ofName r.foreignType, id, .underWay 0⟩
        : Load).Serves e (w.entity e) name := ⟨rfl, rfl, hid, ⟨r, hr, rfl⟩, 0, rfl⟩
    have hbegun : Evolves ids links w _ := h.beginLoad he hserves hstore hlinks
    apply hbegun.trans
    exact hbegun.coherent.settleLoad (load?_beginLoad_self ..) rfl nofun fun _ => hlinks
  | ok objectType =>
    obtain ⟨deadline, hstart⟩ := startLoad_of_ok name id htype
    rw [hstart]
    have hserves := serves_of_objectType h he hr hid htype deadline
    have hsent : Evolves ids links w _ := h.sendLoad he hserves hstore hlinks r.foreignType
    exact hsent.trans (hsent.coherent.pollLoad_of_sent hserves hlinks)

/-- The load that was started is the one for the relationship. -/
theorem Coherent.load_of_startLoad (h : w.Coherent) (he : e < w.entities.size) {r : Relationship}
    {id : String} (hr : (w.entity e).objectType.belongsTo? name = some r)
    (hid : (w.entity e).foreignId? name = some id)
    : ∃ load, (w.startLoad e name r.foreignType id).2.load? (w.startLoad e name r.foreignType id).1
          = some load
        ∧
      load.owner = e
        ∧
      load.relation = name := by
  cases htype : (w.entity e).store.objectType r.foreignType with
  | error err =>
    rw [startLoad_of_error htype]
    dsimp only
    rw [load?_settleLoad (load?_beginLoad_self ..), if_pos rfl]
    exact ⟨_, rfl, rfl, rfl⟩
  | ok objectType =>
    obtain ⟨deadline, hstart⟩ := startLoad_of_ok name id htype
    rw [hstart]
    have hserves := serves_of_objectType h he hr hid htype deadline
    have hsent : Evolves nowhere (fun _ _ => True) w _ :=
      h.sendLoad he hserves (h.wellNamed e he) trivial r.foreignType
    have hpolled : Evolves nowhere (fun _ _ => True) _ _ :=
      hsent.coherent.pollLoad_of_sent hserves trivial
    obtain ⟨load, hload, hcontinues⟩ := hpolled.loads _ _ (load?_sendLoad_self ..)
    exact ⟨load, hload, hcontinues.owner, hcontinues.relation⟩

theorem Coherent.linkNothing (h : w.Coherent) (hlinks : links e name)
    : Evolves ids links w (w.modifyEntity e fun x => x.setLink name (.resolved none)) := by
  apply h.modifyEntity ⟨rfl, rfl, rfl⟩
  intro name'
  by_cases hname : name' = name
  . subst hname
    refine .inr ⟨hlinks, ?_, .inr rfl⟩
    intro link hlink
    unfold Entity.setLink at hlink
    rw [Keyed.get?_insert_self] at hlink
    cases hlink
    exact ⟨none, rfl, nofun⟩
  . left
    exact ⟨by simp [Entity.setLink, Keyed.get?_insert, hname], rfl⟩

/-- Asking for a related object touches its link only. -/
theorem Coherent.askRelated (h : w.Coherent) (he : e < w.entities.size) (hlinks : links e name)
    : Evolves ids links w (w.askRelated e name).2 := by
  unfold World.askRelated
  dsimp only
  split
  . exact h.evolves_refl
  . next r hr =>
    split
    . exact h.evolves_refl
    . exact h.evolves_refl
    . next hunknown =>
      split
      . exact h.linkNothing hlinks
      . next id hid =>
        exact h.startLoad he (Entity.relationship_eq_ok.1 hr) hid hlinks

end World

end ObjectStore
