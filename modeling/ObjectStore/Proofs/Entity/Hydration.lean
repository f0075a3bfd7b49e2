import ObjectStore.Entity.Basic
import ObjectStore.Proofs.Filter.NormalForm
import ObjectStore.Proofs.Keyed

/-!
This module proves which attributes an entity has that is read from a record: under the name of each
attribute of its type stands the value that the record has for it, or null.
-/

namespace ObjectStore

/-- Every attribute is entered under its own name. -/
def ObjectType.NamesAttributes (t : ObjectType) : Prop :=
  ∀ name attr, t.attribute? name = some attr → attr.name = name

/-- The value that a record has for an attribute. -/
def AttributeDef.read (attr : AttributeDef) (r : Record) : Except CastError Value :=
  match r.attributes.get? attr.name with
  | none => .ok .null
  | some document => attr.type.decode document

namespace ObjectType

variable {t : ObjectType}

theorem NamesAttributes.pairwise (h : t.NamesAttributes)
    : t.attributes.values.Pairwise fun a b => a.name < b.name := by
  unfold Keyed.values
  rw [List.pairwise_map]
  apply List.Pairwise.imp_of_mem _ t.attributes.ascending
  intro a b ha hb hlt
  rw [h a.1 a.2 ((t.attributes.mem_entries_iff _ _).mp ha),
    h b.1 b.2 ((t.attributes.mem_entries_iff _ _).mp hb)]
  exact hlt

theorem eq_or_attribute?_of_addAttribute {name : String} {a attr : AttributeDef}
    (h : (t.addAttribute a).attribute? name = some attr)
    : (attr = a ∧ a.name = name) ∨ t.attribute? name = some attr := by
  unfold ObjectType.addAttribute attribute? at h
  rw [Keyed.get?_insert] at h
  split at h
  . next hname =>
    cases h
    exact .inl ⟨rfl, hname.symm⟩
  . exact .inr h

theorem namesAttributes_ofName (typeName : String) : (ofName typeName).NamesAttributes := by
  intro name attr h
  cases h

theorem NamesAttributes.addAttribute (h : t.NamesAttributes) (a : AttributeDef)
    : (t.addAttribute a).NamesAttributes := by
  intro name attr hattr
  rcases eq_or_attribute?_of_addAttribute hattr with ⟨rfl, hname⟩ | hattr
  . exact hname
  . exact h name attr hattr

end ObjectType

namespace Entity

variable {t : ObjectType} {r r' : Record} {values : Keyed Value} {store : Store} {e : Entity}

/-- Enters the value that a record has for an attribute. -/
def enterAttribute (r : Record) (values : Keyed Value) (attr : AttributeDef)
    : Except StoreError (Keyed Value) :=
  match attr.read r with
  | .ok v => .ok (values.insert attr.name v)
  | .error e => .error (.cast (e.forAttribute attr.name))

theorem decodeAttributes_eq (t : ObjectType) (r : Record)
    : decodeAttributes t r = t.attributes.values.foldlM (enterAttribute r) .empty := by
  unfold decodeAttributes
  congr 1
  funext values attr
  unfold enterAttribute AttributeDef.read
  cases r.attributes.get? attr.name <;> rfl

theorem get?_of_foldlM {attrs : List AttributeDef} {start : Keyed Value}
    (hattrs : attrs.Pairwise fun a b => a.name < b.name)
    (h : attrs.foldlM (enterAttribute r) start = .ok values)
    : (∀ attr ∈ attrs, ∃ v, attr.read r = .ok v ∧ values.get? attr.name = some v)
        ∧
      ∀ name, (∀ attr ∈ attrs, attr.name ≠ name) → values.get? name = start.get? name := by
  induction attrs generalizing start with
  | nil =>
    cases h
    exact ⟨by simp, fun _ _ => rfl⟩
  | cons attr attrs ih =>
    obtain ⟨hfirst, hrest⟩ := List.pairwise_cons.mp hattrs
    rw [List.foldlM_cons, bind_eq_ok] at h
    obtain ⟨next, hnext, h⟩ := h
    obtain ⟨hread, hothers⟩ := ih hrest h
    unfold enterAttribute at hnext
    split at hnext
    . next v hv =>
      cases hnext
      have hlater : ∀ other ∈ attrs, other.name ≠ attr.name := by
        intro other hother heq
        have hlt := hfirst other hother
        rw [heq] at hlt
        exact String.lt_irrefl _ hlt
      have hself : values.get? attr.name = some v := by
        rw [hothers attr.name hlater]
        simp
      refine ⟨List.forall_mem_cons.mpr ⟨⟨v, hv, hself⟩, hread⟩, ?_⟩
      intro name hname
      rw [List.forall_mem_cons] at hname
      rw [hothers name hname.2, Keyed.get?_insert, if_neg hname.1.symm]
    . cases hnext

/-- What a hydrated entity has under the name of an attribute. -/
theorem get?_of_decodeAttributes (ht : t.NamesAttributes) (h : decodeAttributes t r = .ok values)
    {name : String} {attr : AttributeDef} (hattr : t.attribute? name = some attr)
    : ∃ v, attr.read r = .ok v ∧ values.get? name = some v := by
  rw [decodeAttributes_eq] at h
  have hmem : attr ∈ t.attributes.values := (t.attributes.mem_values_iff attr).mpr ⟨name, hattr⟩
  obtain ⟨v, hread, hget⟩ := (get?_of_foldlM ht.pairwise h).1 attr hmem
  rw [ht name attr hattr] at hget
  exact ⟨v, hread, hget⟩

theorem attribute_of_decodeAttributes (ht : t.NamesAttributes)
    (h : decodeAttributes t r = .ok values) {name : String} {v : Value}
    (hget : values.get? name = some v) : ∃ attr, t.attribute? name = some attr := by
  rw [decodeAttributes_eq] at h
  apply Classical.byContradiction
  intro hnone
  have hothers : ∀ attr ∈ t.attributes.values, attr.name ≠ name := by
    intro attr hattr heq
    obtain ⟨key, hkey⟩ := (t.attributes.mem_values_iff attr).mp hattr
    rw [ht key attr hkey] at heq
    rw [heq] at hkey
    exact hnone ⟨attr, hkey⟩
  rw [(get?_of_foldlM ht.pairwise h).2 name hothers] at hget
  cases hget

theorem decode_eq_ok {foreignIds : Keyed (Option String)}
    : decode t r = .ok (values, foreignIds)
        ↔
      r.typeName = t.name ∧ decodeAttributes t r = .ok values ∧ foreignIds = decodeForeignIds t r := by
  unfold decode
  by_cases htype : r.typeName = t.name
  . rw [if_neg (not_not_intro htype)]
    cases decodeAttributes t r <;> simp [htype, eq_comm]
  . rw [if_pos htype]
    simp [htype]

theorem attributes_of_hydrate {store : Store} {e : Entity} (h : hydrate store t r = .ok e)
    : e.objectType = t ∧ e.store = store ∧ decodeAttributes t r = .ok e.attributes := by
  unfold hydrate at h
  split at h
  . next hdecode =>
    cases h
    exact ⟨rfl, rfl, (decode_eq_ok.mp hdecode).2.1⟩
  . cases h

theorem attributes_of_rehydrate {e e' : Entity} (h : e.rehydrate r = .ok e')
    : decodeAttributes e.objectType r = .ok e'.attributes := by
  unfold rehydrate at h
  split at h
  . cases h
  . next hdecode =>
    cases h
    exact (decode_eq_ok.mp hdecode).2.1

theorem get?_of_hydrate {store : Store} {e : Entity} (ht : t.NamesAttributes)
    (h : hydrate store t r = .ok e) {name : String} {attr : AttributeDef}
    (hattr : t.attribute? name = some attr)
    : ∃ v, attr.read r = .ok v ∧ e.attributes.get? name = some v :=
  get?_of_decodeAttributes ht (attributes_of_hydrate h).2.2 hattr

theorem get?_of_rehydrate {e e' : Entity} (ht : e.objectType.NamesAttributes)
    (h : e.rehydrate r = .ok e') {name : String} {attr : AttributeDef}
    (hattr : e.objectType.attribute? name = some attr)
    : ∃ v, attr.read r = .ok v ∧ e'.attributes.get? name = some v :=
  get?_of_decodeAttributes ht (attributes_of_rehydrate h) hattr

/-- A clean entity, whose attributes and foreign ids were read from the record. -/
theorem hydrate_eq_ok
    : hydrate store t r = .ok e
        ↔
      r.typeName = t.name
        ∧
      ∃ attributes, decodeAttributes t r = .ok attributes
        ∧
      e = { bare store t r.id true with attributes, foreignIds := decodeForeignIds t r } := by
  unfold hydrate decode
  by_cases htype : r.typeName = t.name
  . rw [if_neg (not_not_intro htype)]
    cases decodeAttributes t r <;> simp [htype, eq_comm]
  . rw [if_pos htype]
    simp [htype]

theorem enterAttribute_eq_ok {values next : Keyed Value} {attr : AttributeDef}
    : enterAttribute r values attr = .ok next
        ↔
      ∃ v, attr.read r = .ok v ∧ next = values.insert attr.name v := by
  unfold enterAttribute
  cases attr.read r <;> simp [eq_comm]

theorem exists_foldlM_enterAttribute_iff {attrs : List AttributeDef} (start : Keyed Value)
    : (∃ values, attrs.foldlM (enterAttribute r) start = .ok values)
        ↔
      ∀ attr ∈ attrs, ∃ v, attr.read r = .ok v := by
  induction attrs generalizing start with
  | nil => simp [pure, Except.pure]
  | cons attr attrs ih =>
    simp only [List.foldlM_cons, List.forall_mem_cons, bind_eq_ok, enterAttribute_eq_ok]
    constructor
    . rintro ⟨values, _, ⟨v, hread, rfl⟩, hrest⟩
      exact ⟨⟨v, hread⟩, (ih _).mp ⟨values, hrest⟩⟩
    . rintro ⟨⟨v, hread⟩, hrest⟩
      obtain ⟨values, hvalues⟩ := (ih (start.insert attr.name v)).mpr hrest
      exact ⟨values, _, ⟨v, hread, rfl⟩, hvalues⟩

/-- An entity is read from a record of its type if each attribute is. -/
theorem exists_hydrate_iff
    : (∃ e, hydrate store t r = .ok e)
        ↔
      r.typeName = t.name ∧ ∀ attr ∈ t.attributes.values, ∃ v, attr.read r = .ok v := by
  rw [← exists_foldlM_enterAttribute_iff .empty, ← decodeAttributes_eq]
  unfold hydrate decode
  by_cases htype : r.typeName = t.name
  . rw [if_neg (not_not_intro htype)]
    cases decodeAttributes t r <;> simp [htype]
  . rw [if_pos htype]
    simp [htype]

theorem foldlM_enterAttribute_congr {attrs : List AttributeDef}
    (h : ∀ attr ∈ attrs, attr.read r' = attr.read r) (start : Keyed Value)
    : attrs.foldlM (enterAttribute r') start = attrs.foldlM (enterAttribute r) start := by
  induction attrs generalizing start with
  | nil => rfl
  | cons attr attrs ih =>
    obtain ⟨hfirst, hrest⟩ := List.forall_mem_cons.mp h
    have hstep : enterAttribute r' start attr = enterAttribute r start attr := by
      unfold enterAttribute
      rw [hfirst]
    rw [List.foldlM_cons, List.foldlM_cons, hstep]
    congr 1
    funext next
    exact ih hrest next

/-- An entity depends on the record by its id, by what is read for the attributes, and by the foreign
ids. -/
theorem hydrate_congr (hid : r'.id = r.id) (htype : r'.typeName = r.typeName)
    (hattributes : ∀ attr ∈ t.attributes.values, attr.read r' = attr.read r)
    (hrelations : ∀ name relationship, t.belongsTo? name = some relationship →
      r'.relationId? name = r.relationId? name)
    : hydrate store t r' = hydrate store t r := by
  have hvalues : decodeAttributes t r' = decodeAttributes t r := by
    rw [decodeAttributes_eq, decodeAttributes_eq]
    exact foldlM_enterAttribute_congr hattributes .empty
  have hforeignIds : decodeForeignIds t r' = decodeForeignIds t r := by
    unfold decodeForeignIds Keyed.map
    congr 1
    apply List.map_congr_left
    rintro ⟨name, relationship⟩ hmem
    dsimp only
    rw [hrelations name relationship ((t.belongsTo.mem_entries_iff name relationship).mp hmem)]
  unfold hydrate decode
  rw [hid, htype, hvalues, hforeignIds]

end Entity

end ObjectStore
