import ObjectStore.Entity.Relations
import ObjectStore.Proofs.Filter.NormalForm
import ObjectStore.Proofs.Json
import ObjectStore.Proofs.Keyed

/-!
This module reads attributes and relationships in one way, as the parts of an object, and proves what
edits and completed writes do to the parts of an entity.
-/

namespace ObjectStore

inductive Part where
  | attr (name : String)
  | relation (name : String)
deriving DecidableEq

/-- The stored form of a part. -/
inductive PartValue where
  | document (d : Json)
  | foreignId (id : Option String)

namespace PartValue

def same : PartValue → PartValue → Bool
  | document a, document b => a.same b
  | foreignId a, foreignId b => a == b
  | _, _ => false

/-- Holds if two objects have the same value for a part, or both have none. -/
def agree : Option PartValue → Option PartValue → Bool
  | some a, some b => a.same b
  | none, none => true
  | _, _ => false

theorem agree_self (v : Option PartValue) : agree v v = true := by
  cases v with
  | none => rfl
  | some v =>
    cases v with
    | document d => exact d.same_self
    | foreignId id => exact beq_self_eq_true id

theorem same_of_same {u v v' : PartValue} (h : u.same v = true) (h' : u.same v' = true)
    : v.same v' = true := by
  cases u with
  | document d =>
    cases v with
    | document e =>
      cases v' with
      | document f => exact Json.same_of_same h h'
      | foreignId _ => cases h'
    | foreignId _ => cases h
  | foreignId id =>
    cases v with
    | document _ => cases h
    | foreignId id' =>
      cases v' with
      | document _ => cases h'
      | foreignId id'' =>
        unfold same at h h' ⊢
        rw [beq_iff_eq] at h h' ⊢
        exact h.symm.trans h'

theorem agree_of_agree {u v v' : Option PartValue} (h : agree u v = true) (h' : agree u v' = true)
    : agree v v' = true := by
  cases u with
  | none =>
    cases v with
    | none => exact h'
    | some _ => cases h
  | some u =>
    cases v with
    | none => cases h
    | some v =>
      cases v' with
      | none => cases h'
      | some v' => exact same_of_same (u := u) h h'

end PartValue

def Record.part? (r : Record) : Part → Option PartValue
  | .attr name => (r.attributes.get? name).map .document
  | .relation name => (r.belongsTo.get? name).map .foreignId

theorem Record.part?_merge (r s : Record) (p : Part)
    : (r.merge s).part? p = (s.part? p).or (r.part? p) := by
  cases p with
  | attr name =>
    unfold Record.part? Record.merge
    simp only [Keyed.get?_merge]
    cases s.attributes.get? name <;> rfl
  | relation name =>
    unfold Record.part? Record.merge
    simp only [Keyed.get?_merge]
    cases s.belongsTo.get? name <;> rfl

namespace Entity

def isChanged (e : Entity) : Part → Bool
  | .attr name => e.dirtyAttributes.contains name
  | .relation name => e.dirtyRelations.contains name

theorem part?_toPatch (e : Entity) (p : Part)
    : e.toPatch.part? p = if e.isChanged p then e.toRecord.part? p else none := by
  cases p with
  | attr name =>
    unfold Record.part? toPatch toRecord isChanged
    simp only [Keyed.get?_map, Keyed.get?_filter]
    cases e.attributes.get? name <;> cases e.dirtyAttributes.contains name <;> rfl
  | relation name =>
    unfold Record.part? toPatch toRecord isChanged
    simp only [Keyed.get?_filter]
    cases e.foreignIds.get? name <;> cases e.dirtyRelations.contains name <;> rfl

theorem document_of_toRecord {e : Entity} {name : String} {v : Value} (h : e.attributes.get? name = some v)
    : e.toRecord.attributes.get? name = some v.toJson := by
  unfold toRecord
  dsimp only
  rw [Keyed.get?_map, h]
  rfl

/-- A record that agrees with an entity has the document of each of its values, or one that is the same. -/
theorem document_of_agree {e : Entity} {r : Record} {name : String} {v : Value}
    (hv : e.attributes.get? name = some v)
    (h : PartValue.agree (e.toRecord.part? (.attr name)) (r.part? (.attr name)) = true)
    : ∃ document, r.attributes.get? name = some document ∧ v.toJson.same document = true := by
  unfold Record.part? at h
  dsimp only at h
  rw [document_of_toRecord hv] at h
  cases hdocument : r.attributes.get? name with
  | none =>
    rw [hdocument] at h
    cases h
  | some document =>
    rw [hdocument] at h
    exact ⟨document, rfl, h⟩

theorem contains_filter (names : Names) (keep : String → Bool) (name : String)
    : (names.filter fun name _ => keep name).contains name
        =
      (names.contains name && keep name) := by
  unfold Keyed.contains
  rw [Keyed.get?_filter]
  cases names.get? name <;> cases keep name <;> simp [Option.filter]

theorem isChanged_markPersisted (e : Entity) (sent : Record) (p : Part)
    : (e.markPersisted sent).isChanged p
        =
      (e.isChanged p && !PartValue.agree (e.toRecord.part? p) (sent.part? p)) := by
  cases p with
  | attr name =>
    unfold isChanged markPersisted
    dsimp only
    rw [contains_filter e.dirtyAttributes fun name => !e.attributeSent sent name]
    congr 2
    unfold attributeSent toRecord Record.part?
    dsimp only
    rw [Keyed.get?_map]
    cases e.attributes.get? name <;> cases sent.attributes.get? name <;> rfl
  | relation name =>
    unfold isChanged markPersisted
    dsimp only
    rw [contains_filter e.dirtyRelations fun name =>
      e.foreignIds.get? name != sent.belongsTo.get? name]
    congr 1
    unfold toRecord Record.part?
    dsimp only
    cases e.foreignIds.get? name <;> cases sent.belongsTo.get? name <;> rfl

theorem contains_eq_false_of_isEmpty {names : Names} (h : names.isEmpty = true) (name : String)
    : names.contains name = false := by
  unfold Keyed.contains
  rw [Keyed.get?_eq_none_of_isEmpty h]
  rfl

theorem clean_of_isDirty_eq_false {e : Entity} (hdestroyed : e.destroyed = false)
    (hdirty : e.isDirty = false) : e.persisted = true ∧ ∀ p, e.isChanged p = false := by
  unfold isDirty at hdirty
  simp only [hdestroyed, Bool.not_false, Bool.true_and, Bool.or_eq_false_iff, Bool.not_eq_false']
    at hdirty
  obtain ⟨⟨hpersisted, hattributes⟩, hrelations⟩ := hdirty
  refine ⟨hpersisted, ?_⟩
  intro p
  cases p with
  | attr name => exact contains_eq_false_of_isEmpty hattributes name
  | relation name => exact contains_eq_false_of_isEmpty hrelations name

/-- The second entity is the first one after a part got another value. -/
structure Edited (e e' : Entity) (p : Part) : Prop where
  identity : e'.identity = e.identity
  store : e'.store = e.store
  persisted : e'.persisted = e.persisted
  destroyed : e'.destroyed = e.destroyed
  changed : e'.isChanged p = true
  hasValue : (e'.toRecord.part? p).isSome = true
  others : ∀ q, q ≠ p →
    e'.toRecord.part? q = e.toRecord.part? q ∧ e'.isChanged q = e.isChanged q

theorem Edited.still_changed {e e' : Entity} {p q : Part} (h : Edited e e' p)
    (hq : e.isChanged q = true) : e'.isChanged q = true := by
  by_cases heq : q = p
  . rw [heq]
    exact h.changed
  . rw [(h.others q heq).2]
    exact hq

theorem contains_add (names : Names) (name name' : String)
    : (names.add name).contains name' = (decide (name' = name) || names.contains name') := by
  unfold Keyed.contains Names.add
  rw [Keyed.get?_insert]
  by_cases h : name' = name <;> simp [h]

theorem edited_attr (e : Entity) (name : String) (v : Value)
    : Edited e { e with
        attributes := e.attributes.insert name v
        dirtyAttributes := e.dirtyAttributes.add name } (.attr name) := by
  refine ⟨rfl, rfl, rfl, rfl, ?_, ?_, ?_⟩
  . simp [isChanged, contains_add]
  . simp [Record.part?, toRecord]
  . intro q hq
    cases q with
    | attr name' =>
      have hne : name' ≠ name := by
        intro heq
        exact hq (by rw [heq])
      simp [Record.part?, toRecord, isChanged, contains_add, Keyed.get?_insert, hne]
    | relation name' => exact ⟨rfl, rfl⟩

theorem edited_relation (e : Entity) (name : String) (id : Option String)
    : Edited e { e with
        foreignIds := e.foreignIds.insert name id
        links := e.links.erase name
        dirtyRelations := e.dirtyRelations.add name } (.relation name) := by
  refine ⟨rfl, rfl, rfl, rfl, ?_, ?_, ?_⟩
  . simp [isChanged, contains_add]
  . simp [Record.part?, toRecord]
  . intro q hq
    cases q with
    | attr name' => exact ⟨rfl, rfl⟩
    | relation name' =>
      have hne : name' ≠ name := by
        intro heq
        exact hq (by rw [heq])
      simp [Record.part?, toRecord, isChanged, contains_add, Keyed.get?_insert, hne]

theorem edited_of_set {e e' : Entity} {name : String} {v : Value} (h : e.set name v = .ok e')
    : e' = e ∨ Edited e e' (.attr name) := by
  unfold set at h
  split at h
  . cases h
  . split at h
    . cases h
    . split at h
      . injection h with h
        exact .inl h.symm
      . injection h with h
        subst h
        exact .inr (edited_attr e name _)

theorem edited_of_setRelatedId {e e' : Entity} {name : String} {id : Option String}
    (h : e.setRelatedId name id = .ok e') : e' = e ∨ Edited e e' (.relation name) := by
  unfold setRelatedId at h
  obtain ⟨_, _, h⟩ := bind_eq_ok.1 h
  split at h
  . injection h with h
    exact .inl h.symm
  . injection h with h
    subst h
    exact .inr (edited_relation e name id)

end Entity

end ObjectStore
