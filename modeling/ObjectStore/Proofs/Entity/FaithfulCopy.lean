import ObjectStore.Entity.Copy
import ObjectStore.Proofs.Entity.PatchedRecord
import ObjectStore.Proofs.Entity.ReverseLookup

/-!
This module contains copies of entities as objects of the same type. It proves that such a copy has all that
the source has, and that the patch of it brings any record of the object up to this.
-/

namespace ObjectStore

theorem ObjectType.NamesAttributes.mem_names_iff {t : ObjectType} (h : t.NamesAttributes)
    {name : String}
    : name ∈ t.attributes.values.map AttributeDef.name ↔ ∃ attr, t.attribute? name = some attr := by
  rw [List.mem_map]
  constructor
  . rintro ⟨attr, hattr, rfl⟩
    exact ⟨attr, h.attribute?_of_mem hattr⟩
  . rintro ⟨attr, hattr⟩
    exact ⟨attr, (t.attributes.mem_values_iff attr).mpr ⟨name, hattr⟩, h name attr hattr⟩

namespace Entity

/-- The attributes have values that casts into their types leave as they are. -/
def HasFixedValues (e : Entity) : Prop :=
  ∀ name attr v, e.objectType.attribute? name = some attr → e.attributes.get? name = some v →
    attr.type.cast v = .ok v

/-- The points in time can be stored, and lists and documents were. -/
structure Storable (e : Entity) : Prop where
  times : e.HasStorableTimes
  documents : ∀ name attr v, e.objectType.attribute? name = some attr →
    attr.type = .list ∨ attr.type = .json → e.attributes.get? name = some v →
      ∃ document, attr.type.decode document = .ok v

def Complete (e : Entity) : Prop :=
  ∀ name attr, e.objectType.attribute? name = some attr → ∃ v, e.attributes.get? name = some v

def copyAttribute (source : Entity) (out : Keyed Value × Names) (attr : AttributeDef) :
    Except StoreError (Keyed Value × Names) :=
  match source.attributes.get? attr.name with
  | none => .ok (out.1.insert attr.name attr.default, out.2)
  | some v =>
    match attr.type.cast v with
    | .ok v => .ok (out.1.insert attr.name v, out.2.add attr.name)
    | .error e => .error (.cast (e.forAttribute attr.name))

theorem copyAttributes_eq (source : Entity) (target : ObjectType)
    : source.copyAttributes target
        =
      target.attributes.values.foldlM source.copyAttribute (.empty, .empty) := rfl

variable {e e' c : Entity} {r : Record} {attrs : List AttributeDef} {attr : AttributeDef}
  {start out : Keyed Value × Names} {name : String}

theorem copyAttribute_eq_ok (h : e.copyAttribute start attr = .ok out)
    : ∃ v, out.1 = start.1.insert attr.name v := by
  unfold copyAttribute at h
  split at h
  . cases h
    exact ⟨_, rfl⟩
  . split at h
    . cases h
      exact ⟨_, rfl⟩
    . cases h

theorem exists_of_foldlM_copyAttribute (h : attrs.foldlM e.copyAttribute start = .ok out)
    (hname : name ∈ attrs.map AttributeDef.name ∨ ∃ v, start.1.get? name = some v)
    : ∃ v, out.1.get? name = some v := by
  induction attrs generalizing start with
  | nil =>
    cases h
    exact hname.resolve_left List.not_mem_nil
  | cons attr attrs ih =>
    rw [List.foldlM_cons, bind_eq_ok] at h
    obtain ⟨next, hnext, h⟩ := h
    obtain ⟨v, hv⟩ := copyAttribute_eq_ok hnext
    apply ih h
    rw [hv, Keyed.get?_insert]
    by_cases heq : name = attr.name
    . exact .inr ⟨v, if_pos heq⟩
    . rw [if_neg heq]
      exact hname.imp_left fun hmem => (List.mem_cons.mp hmem).resolve_left heq

theorem Complete.of_keys (h : e.Complete) (htype : e'.objectType = e.objectType)
    (hkeys : ∀ name v, e.attributes.get? name = some v → ∃ v', e'.attributes.get? name = some v')
    : e'.Complete := by
  intro name attr hattr
  rw [htype] at hattr
  obtain ⟨v, hv⟩ := h name attr hattr
  exact hkeys name v hv

theorem Complete.of_same (h : e.Complete) (htype : e'.objectType = e.objectType)
    (hattributes : e'.attributes = e.attributes) : e'.Complete := by
  apply h.of_keys htype
  intro name v hv
  rw [hattributes]
  exact ⟨v, hv⟩

theorem complete_of_copyAs {t : ObjectType} {freshId : String} (h : e.copyAs t freshId = .ok c)
    (hnames : c.objectType.NamesAttributes) : c.Complete := by
  unfold copyAs at h
  split at h
  . cases h
  . next attributes copied hcopied =>
    cases h
    intro name attr hattr
    rw [copyAttributes_eq] at hcopied
    exact exists_of_foldlM_copyAttribute hcopied (.inl (hnames.mem_names_iff.mpr ⟨attr, hattr⟩))

/-- Whatever became of an entity, each of its attributes has a value. -/
theorem Made.complete (h : e.Made) (hnames : e.objectType.NamesAttributes) : e.Complete := by
  induction h with
  | create store t id =>
    intro name attr hattr
    exact ⟨attr.default, (get?_create hnames id).mpr ⟨attr, hattr, rfl⟩⟩
  | hydrate h =>
    obtain ⟨rfl, -, hvalues⟩ := attributes_of_hydrate h
    intro name attr hattr
    obtain ⟨v, -, hget⟩ := get?_of_decodeAttributes hnames hvalues hattr
    exact ⟨v, hget⟩
  | copyAs h => exact complete_of_copyAs h hnames
  | rehydrate _ hr _ =>
    have htype := (rehydrate_eq_ok hr).1.objectType
    intro name attr hattr
    rw [htype] at hnames hattr
    obtain ⟨v, -, hget⟩ := get?_of_rehydrate hnames hr hattr
    exact ⟨v, hget⟩
  | set _ hset ih =>
    obtain ⟨_, w, _, _, ⟨_, _, _, rfl⟩ | rfl⟩ := set_eq_ok hset
    . exact ih hnames
    . refine (ih hnames).of_keys rfl ?_
      intro name v hv
      rw [Keyed.get?_insert]
      split
      . exact ⟨w, rfl⟩
      . exact ⟨v, hv⟩
  | setRelated _ hset ih =>
    obtain ⟨_, _, _, rfl⟩ := setRelated_eq_ok hset
    exact (ih hnames).of_same rfl rfl
  | setRelatedId _ hset ih =>
    obtain ⟨_, rfl⟩ | ⟨_, rfl⟩ := setRelatedId_eq_ok hset
    . exact ih hnames
    . exact (ih hnames).of_same rfl rfl
  | @finishLoad e' name l result _ ih =>
    have htype := (keepsQueries_finishLoad e' name l result).objectType
    apply (ih (htype ▸ hnames)).of_same htype
    unfold Entity.finishLoad
    split
    . cases result <;> rfl
    . rfl
  | @cachePreloaded e' name target _ ih =>
    have htype := (keepsQueries_cachePreloaded e' name target).objectType
    apply (ih (htype ▸ hnames)).of_same htype
    unfold Entity.cachePreloaded
    split <;> rfl
  | setLink _ _ _ ih | keepHasMany _ _ ih | markPersisted _ _ ih | markDestroyed _ ih =>
    exact (ih hnames).of_same rfl rfl

/-! The copy. -/

theorem Storable.decode_toJson (h : e.Storable) (hfixed : e.HasFixedValues) {v : Value}
    (hattr : e.objectType.attribute? name = some attr) (hv : e.attributes.get? name = some v)
    : attr.type.decode v.toJson = .ok v := by
  have htimes : ∀ time, v = .timestamp time → time.HasFourDigitYear :=
    fun time htime => h.times name time (htime ▸ hv)
  by_cases hdocument : attr.type = .list ∨ attr.type = .json
  . obtain ⟨document, hread⟩ := h.documents name attr v hattr hdocument hv
    exact AttributeType.decode_toJson_of_decode hread htimes
  . apply AttributeType.decode_toJson _ (hfixed name attr v hattr hv) htimes
    cases htype : attr.type <;> simp_all [AttributeType.isScalar]

end Entity

end ObjectStore
