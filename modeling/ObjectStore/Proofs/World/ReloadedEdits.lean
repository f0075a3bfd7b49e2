import ObjectStore.Proofs.Entity.Hydration
import ObjectStore.Proofs.World.FailedCalls
import ObjectStore.Proofs.World.OwnSave

/-!
This module follows an entity through a reload. It proves that of all that was edited only the
relationships are kept, and that these are what the next save sends.
-/

namespace ObjectStore

namespace Entity

variable {e e' : Entity} {r : Record}

/-- What a reload from a record makes of an entity. -/
structure Reloaded (e : Entity) (r : Record) (e' : Entity) : Prop extends SameIdentity e e' where
  values : ∀ name attr, e.objectType.attribute? name = some attr →
    ∃ v, attr.read r = .ok v ∧ e'.attributes.get? name = some v
  dirtyAttributes : e'.dirtyAttributes = .empty
  dirtyRelations : e'.dirtyRelations = e.dirtyRelations
  kept : ∀ name, e.dirtyRelations.contains name = true → SameRelation e e' name
  replaced : ∀ name relationship, e.objectType.belongsTo? name = some relationship →
    e.dirtyRelations.contains name = false →
      e'.foreignIds.get? name = some (r.relationId? name) ∧ e'.links.get? name = none
  hasMany : e'.hasMany = .empty
  persisted : e'.persisted = true
  destroyed : e'.destroyed = e.destroyed

/-- The part of a patch that is for the relationships. -/
def relationPatch (e : Entity) : Record :=
  { Record.ofId e.typeName e.id with
    belongsTo := e.foreignIds.filter fun name _ => e.dirtyRelations.contains name }

theorem rehydrate_eq_ok_iff
    : e.rehydrate r = .ok e'
        ↔
      ∃ attributes foreignIds, decode e.objectType r = .ok (attributes, foreignIds)
        ∧
      e' = { e with
        attributes
        dirtyAttributes := .empty
        foreignIds := e.foreignIds.merge
          (foreignIds.filter fun name _ => !e.dirtyRelations.contains name)
        links := e.links.filter fun name _ =>
          !(foreignIds.filter fun name _ => !e.dirtyRelations.contains name).contains name
        hasMany := .empty
        persisted := true } := by
  unfold rehydrate
  cases hdecode : decode e.objectType r with
  | error err => simp
  | ok decoded =>
    obtain ⟨attributes, foreignIds⟩ := decoded
    simp [eq_comm]

theorem reloaded_of_rehydrate (hnames : e.objectType.NamesAttributes) (h : e.rehydrate r = .ok e')
    : e.Reloaded r e' := by
  obtain ⟨hidentity, hrelations⟩ := rehydrate_eq_ok h
  obtain ⟨attributes, foreignIds, hdecode, heq⟩ := rehydrate_eq_ok_iff.mp h
  obtain ⟨-, -, hforeignIds⟩ := decode_eq_ok.mp hdecode
  constructor
  case toSameIdentity => exact hidentity
  case values => exact fun _ _ hattr => get?_of_rehydrate hnames h hattr
  case kept =>
    intro name hdirty
    have hrelation := hrelations name
    rw [if_neg (by simp [hdirty])] at hrelation
    exact hrelation
  case replaced =>
    intro name relationship hname hclean
    have hrelation := hrelations name
    rw [if_pos ⟨hclean, by rw [hname]; rfl⟩] at hrelation
    refine ⟨?_, hrelation⟩
    rw [heq, hforeignIds]
    unfold ObjectType.belongsTo? at hname
    simp [decodeForeignIds, hname, hclean, Option.filter]
  all_goals rw [heq]

theorem Reloaded.toPatch_eq (h : e.Reloaded r e') : e'.toPatch = e.relationPatch := by
  have hattributes : (e'.attributes.filter fun name _ => e'.dirtyAttributes.contains name).map
      (fun _ v => v.toJson) = .empty := by
    rw [h.dirtyAttributes]
    apply Keyed.ext_get?
    intro name
    rw [Keyed.get?_map, Keyed.get?_filter]
    cases e'.attributes.get? name <;> rfl
  have hforeignIds : (e'.foreignIds.filter fun name _ => e'.dirtyRelations.contains name)
      = e.foreignIds.filter fun name _ => e.dirtyRelations.contains name := by
    rw [h.dirtyRelations]
    apply Keyed.ext_get?
    intro name
    rw [Keyed.get?_filter, Keyed.get?_filter]
    cases hdirty : e.dirtyRelations.contains name with
    | true => rw [(h.kept name hdirty).foreignId]
    | false => cases e'.foreignIds.get? name <;> cases e.foreignIds.get? name <;> rfl
  unfold toPatch relationPatch typeName
  rw [hattributes, hforeignIds, h.id, h.objectType]
  rfl

theorem Reloaded.isDirty_eq (h : e.Reloaded r e') (hlives : e.destroyed = false)
    : e'.isDirty = !e.dirtyRelations.isEmpty := by
  unfold isDirty
  rw [h.destroyed, hlives, h.persisted, h.dirtyAttributes, h.dirtyRelations]
  rfl

/-- What is known of related objects does not matter. -/
theorem Reloaded.with_links (h : e.Reloaded r e') (links : Keyed Link) (hasMany : Keyed Query)
    : ({ e' with links, hasMany } : Entity).toPatch = e.relationPatch
        ∧
      ({ e' with links, hasMany } : Entity).isDirty = e'.isDirty :=
  ⟨h.toPatch_eq, rfl⟩

end Entity

namespace World

variable {w : World} {e : EntityRef} {r : Record} {x : Entity}

theorem arrive_reload_of_found (hask : w.ask e = .ok (some r))
    (hrehydrate : (w.entity e).rehydrate r = .ok x)
    : w.arrive (.reload e) = (.finished (.ok .done), w.modifyEntity e fun _ => x) := by
  unfold ask at hask
  unfold arrive
  dsimp only
  rw [hask]
  unfold reloadWith tryModify
  dsimp only
  rw [hrehydrate]
  rfl

theorem arrive_reload_done_iff
    : (w.arrive (.reload e)).1 = .finished (.ok .done)
        ↔
      ∃ r x, w.ask e = .ok (some r) ∧ (w.entity e).rehydrate r = .ok x := by
  constructor
  . intro hdone
    unfold arrive at hdone
    dsimp only at hdone
    split at hdone
    . cases hdone
    . next r hr =>
      cases r with
      | none => cases hdone
      | some r =>
        unfold reloadWith tryModify at hdone
        dsimp only at hdone
        split at hdone
        . next x hx => exact ⟨r, x, hr, hx⟩
        . cases hdone
  . rintro ⟨r, x, hask, hrehydrate⟩
    rw [arrive_reload_of_found hask hrehydrate]

theorem ask_arrival (w : World) (job : Job) (clock : Nat) (e : EntityRef)
    : (w.arrival job clock).ask e = w.ask e := by
  obtain ⟨log, hadapter⟩ := w.adapter_arrival job clock (w.entity e).store.adapter
  have hentity : (w.arrival job clock).entity e = w.entity e := rfl
  unfold ask
  rw [hentity, hadapter]
  rfl

theorem perform_reload_done_iff
    : (w.perform (.reload e)).1 = .finished (.ok .done)
        ↔
      (w.entity e).destroyed = false
        ∧
      ∃ r values, w.ask e = .ok (some r) ∧ Entity.decode (w.entity e).objectType r = .ok values := by
  cases hdestroyed : (w.entity e).destroyed with
  | true =>
    rw [perform_reload_of_destroyed hdestroyed]
    simp
  | false =>
    obtain ⟨clock, hperform⟩ := perform_reload_of_lives hdestroyed
    rw [hperform, arrive_reload_done_iff, ask_arrival]
    change (∃ r x, _ ∧ (w.entity e).rehydrate r = .ok x) ↔ _
    simp only [Entity.rehydrate_eq_ok_iff]
    constructor
    . rintro ⟨r, _, hask, attributes, foreignIds, hdecode, -⟩
      exact ⟨trivial, r, _, hask, hdecode⟩
    . rintro ⟨-, r, values, hask, hdecode⟩
      exact ⟨r, _, hask, values.1, values.2, hdecode, rfl⟩

/-- A reload that ends well makes of the entity what it reads, and leaves the others as they are. -/
theorem perform_reload_of_done (hdone : (w.perform (.reload e)).1 = .finished (.ok .done))
    : ∃ r x, w.ask e = .ok (some r)
        ∧
      (w.entity e).rehydrate r = .ok x
        ∧
      (w.perform (.reload e)).2.entities = (w.modifyEntity e fun _ => x).entities := by
  have hlives := (perform_reload_done_iff.mp hdone).1
  obtain ⟨clock, hperform⟩ := perform_reload_of_lives hlives
  rw [hperform] at hdone ⊢
  obtain ⟨r, x, hask, hrehydrate⟩ := arrive_reload_done_iff.mp hdone
  rw [arrive_reload_of_found hask hrehydrate]
  rw [ask_arrival] at hask
  exact ⟨r, x, hask, hrehydrate, rfl⟩

theorem ownOps_of_reloaded {v : World} {x' : Entity} (hreloaded : x.Reloaded r x')
    (hlives : x.destroyed = false) (hlt : e < v.entities.size) {links : Keyed Link}
    {hasMany : Keyed Query} (hentity : v.entity e = { x' with links, hasMany })
    : v.ownOps e = if x.dirtyRelations.isEmpty then [] else [.patch x.relationPatch] := by
  obtain ⟨hpatch, hdirty⟩ := hreloaded.with_links links hasMany
  have hlives' : (v.entity e).destroyed = false := by
    rw [hentity]
    exact hreloaded.destroyed.trans hlives
  have hpersisted : (v.entity e).persisted = true := by
    rw [hentity]
    exact hreloaded.persisted
  rw [ownOps_of_lives hlt hlives', hpersisted, hentity, hpatch, hdirty,
    hreloaded.isDirty_eq hlives, if_neg (by simp)]
  cases x.dirtyRelations.isEmpty <;> rfl

/-- A reload ends well if and only if the entity is not destroyed and the adapter has a record for it that
can be decoded. Then all attributes are those of the record, and so are the relationships, except for
those that were edited: these stay as they are. They are also all that a later save sends of the entity,
whatever became known of related objects in the meantime. -/
theorem reload_keeps_edited_relations (he : e < w.entities.size)
    (hnames : (w.entity e).objectType.NamesAttributes)
    : ((w.perform (.reload e)).1 = .finished (.ok .done)
          ↔
        (w.entity e).destroyed = false
          ∧
        ∃ r values, w.ask e = .ok (some r)
          ∧ Entity.decode (w.entity e).objectType r = .ok values)
        ∧
      ((w.perform (.reload e)).1 = .finished (.ok .done) →
        (∃ r, w.ask e = .ok (some r)
            ∧ (w.entity e).Reloaded r ((w.perform (.reload e)).2.entity e))
          ∧
        (∀ e', e' ≠ e → (w.perform (.reload e)).2.entity e' = w.entity e')
          ∧
        ∀ (v : World) links hasMany, e < v.entities.size →
          v.entity e = { (w.perform (.reload e)).2.entity e with links, hasMany } →
            v.ownOps e = if (w.entity e).dirtyRelations.isEmpty then []
              else [.patch (w.entity e).relationPatch]) := by
  refine ⟨perform_reload_done_iff, ?_⟩
  intro hdone
  have hlives := (perform_reload_done_iff.mp hdone).1
  obtain ⟨r, x, hask, hrehydrate, hentities⟩ := perform_reload_of_done hdone
  have hentity : (w.perform (.reload e)).2.entity e = x := by
    rw [Batch.entity_congr hentities, w.entity_modifyEntity _ _ _ he, if_pos rfl]
  have hreloaded : (w.entity e).Reloaded r x := Entity.reloaded_of_rehydrate hnames hrehydrate
  rw [hentity]
  refine ⟨⟨r, hask, hreloaded⟩, ?_, ?_⟩
  . intro e' hne
    rw [Batch.entity_congr hentities, w.entity_modifyEntity_of_ne hne]
  . intro v links hasMany hlt hsame
    exact ownOps_of_reloaded hreloaded hlives hlt hsame

def shelfType : ObjectType :=
  (((ObjectType.ofName "shelf").addAttribute { name := "label", type := .text }).addBelongsTo
    "room" "room" "shelves").addBelongsTo "owner" "person" "shelves"

def shelfStore : Store := ⟨0, Schema.addType .empty shelfType, {}⟩

def shelfRecord (label owner : String) : Record :=
  (((Record.ofId "shelf" "s").withAttribute "label" (.string label)).withRelation "room"
    (some "hall")).withRelation "owner" (some owner)

/-- A shelf in memory, which someone else changed in the adapter since it was read. -/
def shelfWorld : World :=
  { (World.empty.hydrate shelfStore shelfType (shelfRecord "books" "ann")).2 with
    adapters := #[Adapter.empty.insert (shelfRecord "maps" "bob")] }

/-- The shelf was moved, and got another label. -/
def editedShelf : World :=
  (((shelfWorld.set 0 "label" (.string "letters")).2).setRelatedId 0 "room" (some "attic")).2

theorem edited_shelf_stays_moved
    : (editedShelf.perform (.reload 0)).1 = .finished (.ok .done)
        ∧
      ((editedShelf.perform (.reload 0)).2.entity 0).attributes.get? "label" = some (.string "maps")
        ∧
      ((editedShelf.perform (.reload 0)).2.entity 0).foreignIds.get? "room" = some (some "attic")
        ∧
      ((editedShelf.perform (.reload 0)).2.entity 0).foreignIds.get? "owner" = some (some "bob")
        ∧
      (editedShelf.perform (.reload 0)).2.ownOps 0
        = [.patch ((Record.ofId "shelf" "s").withRelation "room" (some "attic"))] := by
  have hask : editedShelf.ask 0 = .ok (some (shelfRecord "maps" "bob")) := rfl
  have hnames : (editedShelf.entity 0).objectType.NamesAttributes :=
    (ObjectType.namesAttributes_ofName "shelf").addAttribute _
  have hdone : (editedShelf.perform (.reload 0)).1 = .finished (.ok .done) :=
    perform_reload_done_iff.mpr ⟨rfl, _, _, hask, rfl⟩
  obtain ⟨⟨r, hr, hreloaded⟩, -, hsends⟩ :=
    (reload_keeps_edited_relations (w := editedShelf) (e := 0) (by decide) hnames).2 hdone
  have hread : r = shelfRecord "maps" "bob" := by
    rw [hask] at hr
    cases hr
    rfl
  obtain ⟨v, hv, hlabel⟩ := hreloaded.values "label" _ rfl
  rw [hread] at hv
  cases hv
  refine ⟨hdone, hlabel, (hreloaded.kept "room" rfl).foreignId, ?_, ?_⟩
  . rw [(hreloaded.replaced "owner" _ rfl rfl).1, hread]
    rfl
  . exact hsends _ _ _ (by decide) rfl

end World

end ObjectStore
