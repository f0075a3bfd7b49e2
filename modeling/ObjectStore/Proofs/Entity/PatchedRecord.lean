import ObjectStore.Proofs.Entity.EditedValues
import ObjectStore.Proofs.Schema.ReadBack

/-!
This module compares the two ways in which an edited entity can be written: as a patch of the record that
it was read from, and as a record of its own. It proves that both leave a record from which the same
entity is read, however the record at first spelled what the edits did not touch.
-/

namespace ObjectStore.Entity

variable {store : Store} {t : ObjectType} {r r' : Record} {e e' e'' : Entity} {name : String}

/-- An entity after some edits, each of which went through. -/
inductive AfterEdits (e : Entity) : Entity → Prop where
  | start : AfterEdits e e
  | set {e' e'' : Entity} {name : String} {v : Value} (h : AfterEdits e e')
    (hset : e'.set name v = .ok e'') : AfterEdits e e''
  | setRelated {e' e'' : Entity} {name : String} {target : Option (EntityRef × Identity)}
    (h : AfterEdits e e') (hset : e'.setRelated name target = .ok e'') : AfterEdits e e''
  | setRelatedId {e' e'' : Entity} {name : String} {id : Option String} (h : AfterEdits e e')
    (hset : e'.setRelatedId name id = .ok e'') : AfterEdits e e''

/-- The points in time among the values are in the years that the notation has room for. -/
def HasStorableTimes (e : Entity) : Prop :=
  ∀ name time, e.attributes.get? name = some (.timestamp time) → time.HasFourDigitYear

/-- What edits keep of an entity. -/
structure KeepsUnchanged (e e' : Entity) : Prop where
  identity : SameIdentity e e'
  value : ∀ name, e'.isChanged (.attr name) = false →
    e'.attributes.get? name = e.attributes.get? name
  foreignId : ∀ name, e'.isChanged (.relation name) = false →
    e'.foreignIds.get? name = e.foreignIds.get? name
  hasValue : ∀ p, e'.isChanged p = true → (e'.toRecord.part? p).isSome = true

theorem Edited.hasValue_of_isChanged {part : Part} (h : Edited e e' part)
    (hvalue : ∀ p, e.isChanged p = true → (e.toRecord.part? p).isSome = true)
    : ∀ p, e'.isChanged p = true → (e'.toRecord.part? p).isSome = true := by
  intro p hp
  by_cases hpart : p = part
  . rw [hpart]
    exact h.hasValue
  . rw [(h.others p hpart).2] at hp
    rw [(h.others p hpart).1]
    exact hvalue p hp

theorem KeepsUnchanged.setAttribute (h : KeepsUnchanged e e') (name : String) (v : Value)
    : KeepsUnchanged e { e' with
        attributes := e'.attributes.insert name v
        dirtyAttributes := e'.dirtyAttributes.add name } := by
  refine ⟨h.identity.trans ⟨rfl, rfl, rfl⟩, ?_, h.foreignId, ?_⟩
  . intro name' hname
    unfold isChanged at hname
    dsimp only at hname ⊢
    rw [contains_add, Bool.or_eq_false_iff, decide_eq_false_iff_not] at hname
    rw [Keyed.get?_insert, if_neg hname.1]
    exact h.value name' hname.2
  . exact (edited_attr e' name v).hasValue_of_isChanged h.hasValue

theorem KeepsUnchanged.setForeignId (h : KeepsUnchanged e e') (name : String) (id : Option String)
    (links : Keyed Link)
    : KeepsUnchanged e { e' with
        foreignIds := e'.foreignIds.insert name id
        links
        dirtyRelations := e'.dirtyRelations.add name } := by
  refine ⟨h.identity.trans ⟨rfl, rfl, rfl⟩, h.value, ?_, ?_⟩
  . intro name' hname
    unfold isChanged at hname
    dsimp only at hname ⊢
    rw [contains_add, Bool.or_eq_false_iff, decide_eq_false_iff_not] at hname
    rw [Keyed.get?_insert, if_neg hname.1]
    exact h.foreignId name' hname.2
  . exact (edited_relation e' name id).hasValue_of_isChanged h.hasValue

theorem AfterEdits.keepsUnchanged (h : AfterEdits e e') (hclean : ∀ p, e.isChanged p = false)
    : KeepsUnchanged e e' := by
  induction h with
  | start =>
    refine ⟨.refl e, fun _ _ => rfl, fun _ _ => rfl, ?_⟩
    intro p hp
    rw [hclean p] at hp
    cases hp
  | set _ hset ih =>
    obtain ⟨_, w, _, _, ⟨_, _, _, rfl⟩ | rfl⟩ := set_eq_ok hset
    . exact ih
    . exact ih.setAttribute _ w
  | setRelated _ hset ih =>
    obtain ⟨_, _, _, rfl⟩ := setRelated_eq_ok hset
    exact ih.setForeignId _ _ _
  | setRelatedId _ hset ih =>
    obtain ⟨_, rfl⟩ | ⟨_, rfl⟩ := setRelatedId_eq_ok hset
    . exact ih
    . exact ih.setForeignId _ _ _

theorem AfterEdits.admits (h : AfterEdits e e') (hadmits : e.objectType.Admits e.attributes)
    : e'.objectType.Admits e'.attributes := by
  induction h with
  | start => exact hadmits
  | set _ hset ih => exact admits_set ih hset
  | setRelated _ hset ih =>
    obtain ⟨_, _, _, rfl⟩ := setRelated_eq_ok hset
    exact ih
  | setRelatedId _ hset ih =>
    obtain ⟨_, rfl⟩ | ⟨_, rfl⟩ := setRelatedId_eq_ok hset <;> exact ih

/-- The record after it was merged with the patch has the changed parts of the entity, and is as it was
elsewhere. -/
theorem KeepsUnchanged.part?_merge (h : KeepsUnchanged e e') (r : Record) (p : Part)
    : (r.merge e'.toPatch).part? p = if e'.isChanged p then e'.toRecord.part? p else r.part? p := by
  rw [Record.part?_merge, part?_toPatch]
  split
  . next hchanged => rw [Option.or_of_isSome (h.hasValue p hchanged)]
  . rfl

theorem relationId?_congr (h : r'.part? (.relation name) = r.part? (.relation name))
    : r'.relationId? name = r.relationId? name := by
  have hsame : r'.belongsTo.get? name = r.belongsTo.get? name :=
    Option.map_injective (fun _ _ h => by injection h) h
  unfold Record.relationId?
  rw [hsame]

theorem keepsUnchanged_of_hydrate (hread : hydrate store t r = .ok e) (hedits : AfterEdits e e')
    : KeepsUnchanged e e' := by
  obtain ⟨_, _, _, rfl⟩ := hydrate_eq_ok.mp hread
  apply hedits.keepsUnchanged
  intro p
  cases p <;> rfl

theorem read_toRecord {attr : AttributeDef} {v : Value} (h : e.attributes.get? attr.name = some v)
    : attr.read e.toRecord = attr.type.decode v.toJson :=
  AttributeDef.read_of_document (document_of_toRecord h)

/-- An attribute is read with the same value from the patched record and from the one of the entity. -/
theorem read_patched (hnames : t.NamesAttributes) (hread : hydrate store t r = .ok e)
    (hkeeps : KeepsUnchanged e e') (htimes : e'.HasStorableTimes) {attr : AttributeDef}
    (hattr : t.attribute? name = some attr)
    : attr.read (r.merge e'.toPatch) = attr.read e'.toRecord := by
  obtain rfl := hnames name attr hattr
  have hpart := hkeeps.part?_merge r (.attr attr.name)
  split at hpart
  . exact AttributeDef.read_congr hpart
  . next hunchanged =>
    -- What the record has is spelled as it was at first, and the entity writes it in its own way.
    obtain ⟨v, hv, hget⟩ := get?_of_hydrate hnames hread hattr
    rw [← hkeeps.value attr.name (Bool.eq_false_iff.mpr hunchanged)] at hget
    rw [AttributeDef.read_congr hpart, hv, read_toRecord hget]
    unfold AttributeDef.read at hv
    split at hv
    . cases hv
      exact (AttributeType.decode_null attr.type).symm
    . exact (AttributeType.decode_toJson_of_decode hv fun time htime =>
        htimes attr.name time (htime ▸ hget)).symm

theorem relationId?_patched (hread : hydrate store t r = .ok e) (hkeeps : KeepsUnchanged e e')
    {relationship : Relationship} (hrelationship : t.belongsTo? name = some relationship)
    : (r.merge e'.toPatch).relationId? name = e'.toRecord.relationId? name := by
  have hpart := hkeeps.part?_merge r (.relation name)
  split at hpart
  . exact relationId?_congr hpart
  . next hunchanged =>
    have hkept := hkeeps.foreignId name (Bool.eq_false_iff.mpr hunchanged)
    obtain ⟨_, _, _, rfl⟩ := hydrate_eq_ok.mp hread
    rw [relationId?_congr hpart]
    unfold toRecord
    rw [Record.relationId?, Record.relationId?, hkept]
    unfold decodeForeignIds
    unfold ObjectType.belongsTo? at hrelationship
    simp [hrelationship, Record.relationId?]

/-- The record of an entity can be read if its points in time can be stored. -/
theorem exists_hydrate_toRecord_iff (hnames : e.objectType.NamesAttributes)
    (hadmits : e.objectType.Admits e.attributes)
    : (∃ read, hydrate store e.objectType e.toRecord = .ok read) ↔ e.HasStorableTimes := by
  rw [exists_hydrate_iff]
  constructor
  . rintro ⟨_, hread⟩ name time hget
    obtain ⟨attr, hattr, hcast⟩ := hadmits name _ hget
    obtain rfl := hnames name attr hattr
    obtain ⟨u, hu⟩ := hread attr ((e.objectType.attributes.mem_values_iff attr).mpr ⟨_, hattr⟩)
    rw [read_toRecord hget] at hu
    exact (AttributeType.exists_decode_toJson_iff hcast).mp ⟨u, hu⟩ time rfl
  . intro htimes
    refine ⟨rfl, ?_⟩
    intro attr hattr
    cases hget : e.attributes.get? attr.name with
    | none =>
      refine ⟨.null, ?_⟩
      unfold AttributeDef.read toRecord
      dsimp only
      rw [Keyed.get?_map, hget]
      rfl
    | some v =>
      obtain ⟨attr', hattr', hcast⟩ := hadmits attr.name v hget
      rw [hnames.attribute?_of_mem hattr] at hattr'
      cases hattr'
      rw [read_toRecord hget]
      refine (AttributeType.exists_decode_toJson_iff hcast).mpr ?_
      rintro time rfl
      exact htimes attr.name time hget

/-- A patch of the stored record and a record of the whole entity leave the same entity to be read. Both
can be read as long as the points in time among the values of the entity are in years with four digits,
and not otherwise. -/
theorem patch_agrees_with_record (hnames : t.NamesAttributes) (hread : hydrate store t r = .ok e)
    (hedits : AfterEdits e e')
    : e'.HasStorableTimes
        ↔
      ∃ read, hydrate store t (r.merge e'.toPatch) = .ok read
        ∧
      hydrate store t e'.toRecord = .ok read := by
  obtain ⟨htype, _, hvalues⟩ := attributes_of_hydrate hread
  have hkeeps := keepsUnchanged_of_hydrate hread hedits
  have htype' : e'.objectType = t := hkeeps.identity.objectType.trans htype
  have hadmits := admits_of_decodeAttributes hnames hvalues
  rw [← htype] at hadmits
  have hwhole : (∃ read, hydrate store e'.objectType e'.toRecord = .ok read)
      ↔ e'.HasStorableTimes :=
    exists_hydrate_toRecord_iff (htype' ▸ hnames) (hedits.admits hadmits)
  rw [htype'] at hwhole
  rw [← hwhole]
  constructor
  . rintro ⟨read, hput⟩
    have htimes := hwhole.mp ⟨read, hput⟩
    refine ⟨read, ?_, hput⟩
    obtain ⟨hname, _, _, hentity⟩ := hydrate_eq_ok.mp hread
    have hid : e.id = r.id := by
      rw [hentity]
      rfl
    rw [← hput]
    apply hydrate_congr
    . exact (hkeeps.identity.id.trans hid).symm
    . exact hname.trans (congrArg ObjectType.name htype').symm
    . intro attr hattr
      exact read_patched hnames hread hkeeps htimes (hnames.attribute?_of_mem hattr)
    . intro name relationship hrelationship
      exact relationId?_patched hread hkeeps hrelationship
  . rintro ⟨read, _, hput⟩
    exact ⟨read, hput⟩

def sofaType : ObjectType :=
  (((ObjectType.ofName "sofa").addAttribute { name := "price", type := .integer }).addAttribute
    { name := "made", type := .datetime }).addBelongsTo "room" "room" "sofas"

/-- A sofa with a price that is stored as a string, with a colour that sofas do not have, and without a
time. -/
def sofaRecord : Record :=
  { id := "s", typeName := "sofa"
    attributes := (Keyed.empty.insert "price" (.string "100")).insert "colour" (.string "red")
    belongsTo := Keyed.empty.insert "room" (some "hall") }

theorem namesAttributes_sofaType : sofaType.NamesAttributes :=
  ((ObjectType.namesAttributes_ofName "sofa").addAttribute _).addAttribute _

/-- The second of January 2024. -/
def sofaDay : Day := ⟨19724, by decide, by decide⟩

-- The price is no part of the patch, and is written as a number in the record of the whole entity.
theorem patch_agrees_with_record_of_sofa
    : ∃ e e' read,
        hydrate default sofaType sofaRecord = .ok e
          ∧
        AfterEdits e e'
          ∧
        e'.HasStorableTimes
          ∧
        e'.toPatch.attributes.names = ["made"]
          ∧
        hydrate default sofaType (sofaRecord.merge e'.toPatch) = .ok read
          ∧
        hydrate default sofaType e'.toRecord = .ok read := by
  obtain ⟨e, made, e', hread, hmade, hmoved, hpatch, htimes⟩ : ∃ e made e',
      hydrate default sofaType sofaRecord = .ok e ∧ e.set "made" (.day sofaDay) = .ok made
        ∧ made.setRelatedId "room" none = .ok e' ∧ e'.toPatch.attributes.names = ["made"]
        ∧ e'.attributes.entries
          = [("made", .timestamp (.startOf sofaDay)), ("price", .int 100)] :=
    ⟨_, _, _, rfl, rfl, rfl, rfl, rfl⟩
  have hedits : AfterEdits e e' := (AfterEdits.start.set hmade).setRelatedId hmoved
  have hstorable : e'.HasStorableTimes := by
    intro name time hget
    rw [← Keyed.mem_entries_iff, htimes] at hget
    simp only [List.mem_cons, Prod.mk.injEq, Value.timestamp.injEq, reduceCtorEq, and_false,
      List.not_mem_nil, or_false] at hget
    rw [hget.2]
    decide
  obtain ⟨read, hpatched, hput⟩ :=
    (patch_agrees_with_record namesAttributes_sofaType hread hedits).mp hstorable
  exact ⟨e, e', read, hread, hedits, hstorable, hpatch, hpatched, hput⟩

end ObjectStore.Entity
