import ObjectStore.Proofs.Entity.StoredLists
import ObjectStore.Proofs.World.Lifecycle
import ObjectStore.Proofs.World.SavedParts

/-!
This module follows an entity until it was saved for the last time and then read again from its record. It
proves which of its lists and documents it still has.
-/

namespace ObjectStore

namespace World

variable {x : Handle} {w : World} {e : Entity}

theorem arrive_reload_iff (hx : x.Valid w)
    : (w.arrive (.reload x.entity)).1 = .finished (.ok .done)
          ∧ x.entityIn (w.arrive (.reload x.entity)).2 = e
        ↔
      (w.adapter x.adapter).offline = false
        ∧
      ∃ r, x.stored w = some r ∧ (x.entityIn w).rehydrate r = .ok e := by
  have hstore : (w.entity x.entity).store.adapter = x.adapter := hx.store
  have hstored := LifeSession.record?_entity hx
  rw [hstore] at hstored
  unfold arrive Adapter.get Adapter.checkOnline
  dsimp only
  rw [hstore, hstored, Adapter.handOut_of_no_faults hx.faults, Option.map_id]
  cases (w.adapter x.adapter).offline with
  | true => simp [bind, Except.bind]
  | false =>
    cases x.stored w with
    | none => simp [bind, Except.bind, pure, Except.pure, reloadWith, Except.map]
    | some r =>
      unfold reloadWith tryModify Handle.entityIn
      cases hrehydrate : (w.entity x.entity).rehydrate r with
      | error err => simp [bind, Except.bind, pure, Except.pure, Except.map, hrehydrate]
      | ok e' =>
        simp [bind, Except.bind, pure, Except.pure, Except.map, hrehydrate,
          entity_modifyEntity _ _ _ _ hx.entity_lt]

/-- A reload ends well with an entity if and only if the adapter is online and has a record that this entity is
read from. -/
theorem perform_reload_iff (hx : x.Valid w) (hdestroyed : (x.entityIn w).destroyed = false)
    : (w.perform (.reload x.entity)).1 = .finished (.ok .done)
          ∧ x.entityIn (w.perform (.reload x.entity)).2 = e
        ↔
      (w.adapter x.adapter).offline = false
        ∧
      ∃ r, x.stored w = some r ∧ (x.entityIn w).rehydrate r = .ok e := by
  have hstart : w.start (.reload x.entity) = w.call (.reload x.entity) := by
    unfold start
    exact if_neg (Bool.eq_false_iff.mp hdestroyed)
  obtain ⟨clock, hrun⟩ := run_call (w := w) fun clock =>
    isFinished_arrive_reload (w.arrival (.reload x.entity) clock) x.entity
  obtain ⟨log, hadapter⟩ := w.adapter_arrival (.reload x.entity) clock x.adapter
  -- Until the call arrives, it is only noted.
  have hnoted := SaveSession.aside_modifyAdapter hx (a := (w.entity x.entity).store.adapter)
    (f := fun a => a.noteCall (Job.call w (.reload x.entity))) (fun _ _ _ => rfl) fun _ => rfl
  have hvalid : x.Valid (w.arrival (.reload x.entity) clock) :=
    (SaveSession.aside_clock hnoted.valid clock).valid
  have hstored : x.stored (w.arrival (.reload x.entity) clock) = x.stored w := hnoted.stored
  unfold perform
  rw [hstart, hrun, arrive_reload_iff hvalid, hadapter, hstored]
  rfl

end World

namespace SaveSession

/-- An entity that counts as stored was read from its record. -/
def ReadFirst (x : Handle) (w : World) : Prop :=
  (x.entityIn w).persisted = true →
    ∃ store t r, Entity.hydrate store t r = .ok (x.entityIn w) ∧ x.stored w = some r

/-- An entity that was created or read was edited and saved, and read again after the last save. -/
inductive Reloaded (x : Handle) (saved reloaded : World) : Prop where
  | intro {w₀ w : World} {edits : List Edit} (hstart : Start x w₀) (hread : ReadFirst x w₀)
    (hrun : Run x w₀ ⟨w, none⟩ edits) (hfinal : FinalSave x w)
    (hsaved : (w.perform (.save x.entity)).2 = saved)
    (hdone : (saved.perform (.reload x.entity)).1 = .finished (.ok .done))
    (hreloaded : (saved.perform (.reload x.entity)).2 = reloaded)

variable {x : Handle} {w w₀ saved reloaded : World} {edits : List Edit} {attr : AttributeDef} {v : Value}

/-- What the record has for an attribute after the last save: the document of the value or one that is the
same, or else the one that the value was read from. -/
theorem Run.document_of_final (hstart : Start x w₀) (hread : ReadFirst x w₀)
    (hrun : Run x w₀ ⟨w, none⟩ edits) (hfinal : FinalSave x w)
    (hnames : (x.entityIn (w.perform (.save x.entity)).2).objectType.NamesAttributes)
    (hattr : (x.entityIn (w.perform (.save x.entity)).2).objectType.attribute? attr.name = some attr)
    (hv : (x.entityIn (w.perform (.save x.entity)).2).attributes.get? attr.name = some v)
    : ∃ r, x.stored (w.perform (.save x.entity)).2 = some r
        ∧
      (attr.read r = .ok v
        ∨
      ∃ document, r.attributes.get? attr.name = some document ∧ v.toJson.same document = true) := by
  obtain ⟨hkept, hclean⟩ := (hrun.kept hstart).perform_save (hstart.sound.makeAll edits) hfinal
  obtain ⟨r, hr, _, _, hparts⟩ := hkept.stored_of_clean hclean
  refine ⟨r, hr, ?_⟩
  have hdata := hkept.follows.data
  dsimp only at hdata
  rw [hdata.objectType, Edit.objectType_makeAll] at hnames hattr
  rw [hdata.attributes] at hv
  by_cases hwanted : (Edit.makeAll (x.entityIn w₀) edits).persisted = true
      ∧ (Edit.makeAll (x.entityIn w₀) edits).isChanged (.attr attr.name) = false
  . -- The attribute was never set to another value, and its part of the record was never written.
    left
    obtain ⟨hpersisted, hunchanged⟩ := hwanted
    have hpart := (hrun.perform_save hstart hfinal.alone).untouched hstart _ hpersisted hunchanged
    rw [Edit.persisted_makeAll] at hpersisted
    obtain ⟨store, t, r₀, hhydrate, hr₀⟩ := hread hpersisted
    unfold Handle.stored? at hpart
    rw [hr, hr₀] at hpart
    obtain ⟨htype, -, -⟩ := Entity.attributes_of_hydrate hhydrate
    rw [htype] at hnames hattr
    obtain ⟨v', hv', hget⟩ := Entity.get?_of_hydrate hnames hhydrate hattr
    rw [Edit.get?_makeAll_of_unchanged hunchanged, hget] at hv
    injection hv with hv
    rw [AttributeDef.read_congr hpart, hv', hv]
  . right
    have hpart := hparts (.attr attr.name)
    unfold Entity.wanted at hpart
    rw [if_neg hwanted] at hpart
    exact Entity.document_of_agree hv hpart

/-- A list or a document is read back from its document, unless an item of the list, or of a list in it, has
a type that is not known then. In any case what is read back stays the same from then on. An entity that has
the value when it was saved for the last time still has it when it was read again, up to the sign of zeros
and under the same condition. -/
theorem lists_kept_iff {ty : AttributeType} {u : Value} (hty : ty ∈ [.list, .json])
    (h : ty.cast u = .ok v) (hnull : v ≠ .json .null) (hfinite : v.ItemsFinite)
    : (ty.decode v.toJson = .ok v ↔ v.ItemsUntyped)
        ∧
      (∃ w, ty.decode v.toJson = .ok w ∧ ty.decode w.toJson = .ok w)
        ∧
      ∀ x saved reloaded name attr, Reloaded x saved reloaded →
        (x.entityIn saved).objectType.NamesAttributes →
        (x.entityIn saved).objectType.attribute? name = some attr → attr.type = ty →
        (x.entityIn saved).attributes.get? name = some v →
          ∃ w, (x.entityIn reloaded).attributes.get? name = some w
            ∧
          (w.same v = true ↔ v.ItemsUntyped) := by
  have hv := AttributeType.cast_cast h
  refine ⟨AttributeType.decode_toJson_iff hty hv hnull hfinite, AttributeType.exists_decode_twice hty h, ?_⟩
  rintro x _ _ name attr ⟨hstart, hread, hrun, hfinal, rfl, hdone, rfl⟩ hnames hattr rfl hget
  obtain rfl := hnames name attr hattr
  obtain ⟨r, hr, hdocument⟩ := hrun.document_of_final hstart hread hfinal hnames hattr hget
  obtain ⟨w, hw, hiff⟩ := attr.exists_read_same_iff hty hv hnull hfinite hdocument
  obtain ⟨hkept, hclean⟩ := (hrun.kept hstart).perform_save (hstart.sound.makeAll _) hfinal
  obtain ⟨_, r', hr', hrehydrate⟩ :=
    (World.perform_reload_iff hkept.valid hclean.destroyed).mp ⟨hdone, rfl⟩
  cases hr.symm.trans hr'
  obtain ⟨w', hw', hget'⟩ := Entity.get?_of_rehydrate hnames hrehydrate hattr
  cases hw.symm.trans hw'
  exact ⟨w, hget', hiff⟩

def half : Binary64 := ⟨false, 0x3FE0000000000000, by decide⟩

/-- The size one, and a list in which the largest number stands inside an object. -/
def chestSizes : Value :=
  .array [.int 1, .array [.null, .float half, .json (.object [("largest", .number largest)])]]

def chestStore : Store := ⟨0, .empty, {}⟩

def chest : Handle := ⟨0, 0, ⟨"chest", "c"⟩⟩

def chestWorld : World := { World.empty with adapters := #[Adapter.empty.insert chestRecord] }

/-- The chest was read. -/
def readChest : World := (chestWorld.hydrate chestStore chestType chestRecord).2

def resizedChest : World := Edit.perform readChest 0 (.set "sizes" chestSizes)

def savedChest : World := (resizedChest.perform (.save 0)).2

theorem isItemOf_chestSizes {item : Value} (h : item.IsItemOf chestSizes)
    : (∀ x, item = .float x → x = half) ∧ item.needsType = false := by
  unfold chestSizes at h
  simp only [Value.isItemOf_array_cons_iff, Value.not_isItemOf_array_nil, or_false] at h
  obtain rfl | ⟨⟨⟩⟩ | rfl | rfl | ⟨⟨⟩⟩ | rfl | ⟨⟨⟩⟩ | rfl | ⟨⟨⟩⟩ := h <;> simp [Value.needsType]

theorem itemsUntyped_chestSizes : chestSizes.ItemsUntyped :=
  fun _ hitem => (isItemOf_chestSizes hitem).2

theorem itemsFinite_chestSizes : chestSizes.ItemsFinite := by
  intro x hx
  rw [(isItemOf_chestSizes hx).1 x rfl]
  rfl

theorem start_chest : Start chest readChest := by
  have hreached : (chestWorld.adapter 0).Reached := Adapter.Reached.empty.insert _
  have hhydrate : chestWorld.hydrate chestStore chestType chestRecord = (.ok 0, readChest) := rfl
  exact start_of_hydrate hhydrate (by decide) hreached rfl

theorem run_chest : Run chest readChest ⟨resizedChest, none⟩ [.set "sizes" chestSizes] :=
  Run.start.step (.edit (.set "sizes" chestSizes))

theorem finalSave_chest : FinalSave chest resizedChest :=
  ⟨writesAlone_of_knownRelated_eq_nil (run_chest.kept start_chest).valid rfl rfl, .inr ⟨rfl, by decide⟩⟩

theorem sameData_savedChest : Entity.SameData (resizedChest.entity 0) (savedChest.entity 0) :=
  ((run_chest.kept start_chest).perform_save (start_chest.sound.makeAll _) finalSave_chest).1.follows.data

theorem stored_savedChest
    : chest.stored savedChest
        =
      some { chestRecord with attributes := Keyed.empty.insert "sizes" chestSizes.toJson } := by
  have hsave := Batch.save_of_knownRelated_eq_nil (w := resizedChest) (e := 0) (by decide) rfl rfl
  rw [World.save_eq_saveBatch] at hsave
  injection hsave with hsave
  unfold savedChest
  rcases resizedChest.perform_save 0 with ⟨hnone, _⟩ | ⟨clock, _, hperform⟩
  . rw [hsave] at hnone
    cases hnone
  . rw [hperform, hsave]
    unfold World.arrive World.applyDispatch
    dsimp only
    rw [Adapter.applyBatch_of_online rfl]
    rfl

theorem reloaded_chest : Reloaded chest savedChest (savedChest.perform (.reload 0)).2 := by
  obtain ⟨hkept, hclean⟩ :=
    (run_chest.kept start_chest).perform_save (start_chest.sound.makeAll _) finalSave_chest
  have honline := (sameSettings_perform_save (run_chest.kept start_chest).valid).offline
  obtain ⟨e, he⟩ : ∃ e, (savedChest.entity 0).rehydrate
      { chestRecord with attributes := Keyed.empty.insert "sizes" chestSizes.toJson } = .ok e := by
    apply LifeSession.exists_rehydrate
    . rw [sameData_savedChest.objectType]
      rfl
  have hdone := ((World.perform_reload_iff hkept.valid hclean.destroyed).mpr
    ⟨honline, _, stored_savedChest, he⟩).1
  exact .intro start_chest (fun _ => ⟨chestStore, chestType, chestRecord, rfl, rfl⟩) run_chest
    finalSave_chest rfl hdone rfl

theorem lists_kept_of_chest
    : AttributeType.list.cast (.json chestSizes.toJson) = .ok chestSizes
        ∧ AttributeType.list.decode chestSizes.toJson = .ok chestSizes
        ∧ (savedChest.entity 0).attributes.get? "sizes" = some chestSizes
        ∧ ∃ sizes, ((savedChest.perform (.reload 0)).2.entity 0).attributes.get? "sizes" = some sizes
          ∧ sizes.same chestSizes = true := by
  have hcast : AttributeType.list.cast (.json chestSizes.toJson) = .ok chestSizes := rfl
  have htype : (chest.entityIn savedChest).objectType = chestType := sameData_savedChest.objectType
  have hsizes : (savedChest.entity 0).attributes.get? "sizes" = some chestSizes := by
    rw [sameData_savedChest.attributes]
    rfl
  obtain ⟨hread, -, hkept⟩ :=
    lists_kept_iff (by decide) hcast (by simp [chestSizes]) itemsFinite_chestSizes
  obtain ⟨sizes, hget, hsame⟩ := hkept chest savedChest _ "sizes" { name := "sizes", type := .list }
    reloaded_chest (htype ▸ namesAttributes_chestType) (htype ▸ rfl) rfl hsizes
  exact ⟨hcast, hread.mpr itemsUntyped_chestSizes, hsizes, sizes, hget,
    hsame.mpr itemsUntyped_chestSizes⟩

/-- The second of January 2020. -/
def openingDay : Day := ⟨18263, by decide, by decide⟩

/-- A day in a list comes back as its text. -/
theorem list_not_kept_of_day
    : AttributeType.list.cast (.array [.day openingDay]) = .ok (.array [.day openingDay])
        ∧ AttributeType.list.decode (Value.array [.day openingDay]).toJson
          = .ok (.array [.string openingDay.text])
        ∧ AttributeType.list.decode (Value.array [.day openingDay]).toJson
          ≠ .ok (.array [.day openingDay]) := by
  have hread : AttributeType.list.decode (Value.array [.day openingDay]).toJson
      = .ok (.array [.string openingDay.text]) := rfl
  refine ⟨rfl, hread, ?_⟩
  rw [hread]
  intro h
  cases h

end SaveSession

end ObjectStore
