import ObjectStore.Proofs.Entity.Hydration
import ObjectStore.Proofs.Entity.Links
import ObjectStore.Proofs.Schema.Cast

/-!
This module contains well-typed entities, whose attributes have values that casts into their types leave
as they are. It proves that decoding and casting only give such values. Default values are not cast, so
what is entered without a value, by creating and by copying, is as well-typed as its default values are.
-/

namespace ObjectStore

namespace ObjectType

/-- Every value stands under the name of an attribute, and its type holds it. -/
def Admits (t : ObjectType) (values : Keyed Value) : Prop :=
  ∀ name v, values.get? name = some v →
    ∃ attr, t.attribute? name = some attr ∧ attr.type.cast v = .ok v

def TypesDefaults (t : ObjectType) : Prop :=
  ∀ name attr, t.attribute? name = some attr → attr.type.cast attr.default = .ok attr.default

/-- The default values can be entered as they are. -/
structure Typed (t : ObjectType) : Prop where
  names : t.NamesAttributes
  defaults : t.TypesDefaults

variable {t : ObjectType} {values : Keyed Value} {name : String} {attr : AttributeDef} {v : Value}

theorem admits_empty : t.Admits .empty := by
  intro name v h
  cases h

theorem Admits.insert (h : t.Admits values) (hattr : t.attribute? name = some attr)
    (hv : attr.type.cast v = .ok v) : t.Admits (values.insert name v) := by
  intro name' v' hget
  rw [Keyed.get?_insert] at hget
  split at hget
  . next hname =>
    cases hget
    rw [hname]
    exact ⟨attr, hattr, hv⟩
  . exact h name' v' hget

theorem NamesAttributes.attribute?_of_mem (h : t.NamesAttributes) (hattr : attr ∈ t.attributes.values)
    : t.attribute? attr.name = some attr := by
  obtain ⟨name, hname⟩ := (t.attributes.mem_values_iff attr).mp hattr
  rw [h name attr hname]
  exact hname

theorem typesDefaults_ofName (name : String) : (ofName name).TypesDefaults := by
  intro name' attr h
  cases h

theorem typed_ofName (name : String) : (ofName name).Typed :=
  ⟨namesAttributes_ofName name, typesDefaults_ofName name⟩

theorem TypesDefaults.addAttribute (h : t.TypesDefaults)
    (hdefault : attr.type.cast attr.default = .ok attr.default)
    : (t.addAttribute attr).TypesDefaults := by
  intro name attr' hattr
  rcases eq_or_attribute?_of_addAttribute hattr with ⟨rfl, _⟩ | hattr
  . exact hdefault
  . exact h name attr' hattr

end ObjectType

namespace Schema

def NamesAttributes (s : Schema) : Prop :=
  ∀ typeName t, s.get? typeName = some t → t.NamesAttributes

def TypesDefaults (s : Schema) : Prop :=
  ∀ typeName t, s.get? typeName = some t → t.TypesDefaults

def Typed (s : Schema) : Prop :=
  ∀ typeName t, s.get? typeName = some t → t.Typed

variable {s : Schema}

theorem Typed.of_objectType {store : Store} (h : store.schema.Typed) {typeName : String}
    {t : ObjectType} (ht : store.objectType typeName = .ok t) : t.Typed := by
  unfold Store.objectType at ht
  split at ht
  . next ht' =>
    cases ht
    exact h typeName t ht'
  . cases ht

/-- What holds of all types, and of one more. -/
theorem forall_addType {P : ObjectType → Prop} (h : ∀ typeName t, s.get? typeName = some t → P t)
    {added : ObjectType} (hadded : P added)
    : ∀ typeName t, (s.addType added).get? typeName = some t → P t := by
  intro typeName t ht
  unfold Schema.addType at ht
  rw [Keyed.get?_insert] at ht
  split at ht
  . cases ht
    exact hadded
  . exact h typeName t ht

end Schema

namespace Entity

/-- The attributes are well-typed, and what can be made of the entity will be. -/
structure Typed (e : Entity) : Prop where
  schema : e.store.schema.Typed
  objectType : e.objectType.Typed
  values : e.objectType.Admits e.attributes

variable {e e' : Entity} {store : Store} {t : ObjectType} {r : Record} {name : String} {v : Value}

theorem typed_default : (default : Entity).Typed :=
  ⟨fun _ _ h => (nomatch h), ObjectType.typed_ofName "", ObjectType.admits_empty⟩

/-- An entity stays well-typed as long as nobody touches its attributes. -/
theorem Typed.of_same (h : e.Typed) (hidentity : SameIdentity e e')
    (hattributes : e'.attributes = e.attributes) : e'.Typed := by
  constructor
  . rw [hidentity.store]
    exact h.schema
  . rw [hidentity.objectType]
    exact h.objectType
  . rw [hidentity.objectType, hattributes]
    exact h.values

theorem get?_create (ht : t.NamesAttributes) (id : String)
    : (create store t id).attributes.get? name = some v
        ↔
      ∃ attr, t.attribute? name = some attr ∧ attr.default = v := by
  let entries := t.attributes.values.map fun attr => (attr.name, attr.default)
  have hascending : Ascending entries := by
    unfold Ascending
    rw [List.pairwise_map]
    exact ht.pairwise
  have hget : (Keyed.ofList entries).get? name = entries.lookup name := by
    unfold Keyed.ofList
    rw [Keyed.get?_foldl_insert hascending]
    simp
  change (Keyed.ofList entries).get? name = some v ↔ _
  rw [hget, ← hascending.mem_iff_lookup, List.mem_map]
  constructor
  . rintro ⟨attr, hattr, heq⟩
    cases heq
    exact ⟨attr, ht.attribute?_of_mem hattr, rfl⟩
  . rintro ⟨attr, hattr, rfl⟩
    refine ⟨attr, (t.attributes.mem_values_iff attr).mpr ⟨name, hattr⟩, ?_⟩
    rw [ht name attr hattr]

theorem typed_create (hstore : store.schema.Typed) (ht : t.Typed) (id : String)
    : (create store t id).Typed := by
  refine ⟨hstore, ht, ?_⟩
  intro name v hget
  obtain ⟨attr, hattr, rfl⟩ := (get?_create ht.names id).mp hget
  exact ⟨attr, hattr, ht.defaults name attr hattr⟩

theorem admits_of_decodeAttributes (ht : t.NamesAttributes) {values : Keyed Value}
    (h : decodeAttributes t r = .ok values) : t.Admits values := by
  intro name v hget
  obtain ⟨attr, hattr⟩ := attribute_of_decodeAttributes ht h hget
  obtain ⟨v', hread, hget'⟩ := get?_of_decodeAttributes ht h hattr
  rw [hget] at hget'
  cases hget'
  refine ⟨attr, hattr, ?_⟩
  unfold AttributeDef.read at hread
  split at hread
  . cases hread
    rfl
  . exact AttributeType.cast_of_decode hread

theorem typed_hydrate (hstore : store.schema.Typed) (ht : t.Typed) (h : hydrate store t r = .ok e)
    : e.Typed := by
  obtain ⟨rfl, rfl, hvalues⟩ := attributes_of_hydrate h
  exact ⟨hstore, ht, admits_of_decodeAttributes ht.names hvalues⟩

theorem Typed.rehydrate (h : e.Typed) (hr : e.rehydrate r = .ok e') : e'.Typed := by
  have hvalues := attributes_of_rehydrate hr
  unfold Entity.rehydrate at hr
  split at hr
  . cases hr
  . cases hr
    exact ⟨h.schema, h.objectType, admits_of_decodeAttributes h.objectType.names hvalues⟩

/-- An attribute is set to a value that was cast, or it has the same one already. -/
theorem set_eq_ok (h : e.set name v = .ok e')
    : ∃ attr w, e.objectType.attribute? name = some attr
        ∧
      attr.type.cast v = .ok w
        ∧
      ((∃ u, e.attributes.get? name = some u ∧ u.same w = true ∧ e' = e)
        ∨
      e' = { e with
        attributes := e.attributes.insert name w
        dirtyAttributes := e.dirtyAttributes.add name }) := by
  unfold Entity.set at h
  split at h
  . cases h
  . next attr hattr =>
    split at h
    . cases h
    . next w hcast =>
      refine ⟨attr, w, hattr, hcast, ?_⟩
      split at h
      . next hsame =>
        cases h
        obtain ⟨u, hu, hsame⟩ := (Option.any_eq_true ..).mp hsame
        exact .inl ⟨u, hu, hsame, rfl⟩
      . cases h
        exact .inr rfl

theorem admits_set (h : e.objectType.Admits e.attributes) (hset : e.set name v = .ok e')
    : e'.objectType.Admits e'.attributes := by
  obtain ⟨attr, w, hattr, hcast, ⟨_, _, _, rfl⟩ | rfl⟩ := set_eq_ok hset
  . exact h
  . exact h.insert hattr (AttributeType.cast_cast hcast)

theorem Typed.set (h : e.Typed) (hset : e.set name v = .ok e') : e'.Typed := by
  have hidentity := (sameRelations_set hset).toSameIdentity
  constructor
  . rw [hidentity.store]
    exact h.schema
  . rw [hidentity.objectType]
    exact h.objectType
  . exact admits_set h.values hset

/-- What is copied is cast into the type that it has in the target. What the source does not have gets
its default value. -/
theorem admits_of_copyAttributes {source : Entity} (ht : t.Typed) {values : Keyed Value}
    {copied : Names} (h : source.copyAttributes t = .ok (values, copied)) : t.Admits values := by
  unfold copyAttributes at h
  have hmem : ∀ attr ∈ t.attributes.values, t.attribute? attr.name = some attr :=
    fun attr => ht.names.attribute?_of_mem
  generalize t.attributes.values = attrs at h hmem
  have hstart : t.Admits .empty := ObjectType.admits_empty
  generalize (Keyed.empty : Keyed Value) = start, (Keyed.empty : Names) = marked at h hstart
  induction attrs generalizing start marked with
  | nil =>
    cases h
    exact hstart
  | cons attr attrs ih =>
    have hattr := hmem attr List.mem_cons_self
    rw [List.foldlM_cons, bind_eq_ok] at h
    obtain ⟨next, hnext, h⟩ := h
    apply ih (fun attr hattr => hmem attr (List.mem_cons_of_mem _ hattr)) next.1 next.2 h
    dsimp only at hnext
    split at hnext
    . cases hnext
      exact hstart.insert hattr (ht.defaults _ attr hattr)
    . split at hnext
      . next w hcast =>
        cases hnext
        exact hstart.insert hattr (AttributeType.cast_cast hcast)
      . cases hnext

theorem typed_copyAs {source : Entity} (hstore : source.store.schema.Typed) (ht : t.Typed)
    {freshId : String} (h : source.copyAs t freshId = .ok e) : e.Typed := by
  unfold copyAs at h
  split at h
  . cases h
  . next values copied hcopied =>
    cases h
    exact ⟨hstore, ht, admits_of_copyAttributes ht hcopied⟩

theorem Typed.setRelated (h : e.Typed) {target : Option (EntityRef × Identity)}
    (hset : e.setRelated name target = .ok e') : e'.Typed := by
  obtain ⟨_, _, _, rfl⟩ := setRelated_eq_ok hset
  exact h.of_same ⟨rfl, rfl, rfl⟩ rfl

theorem Typed.setRelatedId (h : e.Typed) {id : Option String}
    (hset : e.setRelatedId name id = .ok e') : e'.Typed := by
  obtain ⟨_, rfl⟩ | ⟨_, rfl⟩ := setRelatedId_eq_ok hset
  . exact h
  . exact h.of_same ⟨rfl, rfl, rfl⟩ rfl

theorem Typed.finishLoad (h : e.Typed) (name : String) (l : LoadRef)
    (result : Except StoreError (Option EntityRef)) : (e.finishLoad name l result).Typed := by
  unfold Entity.finishLoad
  split
  . cases result <;> exact h.of_same ⟨rfl, rfl, rfl⟩ rfl
  . exact h

theorem Typed.cachePreloaded (h : e.Typed) (name : String) (target : Option EntityRef)
    : (e.cachePreloaded name target).Typed := by
  unfold Entity.cachePreloaded
  split
  . exact h
  . exact h.of_same ⟨rfl, rfl, rfl⟩ rfl

end Entity

end ObjectStore
