import Mathlib.Logic.Relation
import ObjectStore.Proofs.World.Intents

/-!
This module follows a save from an entity to the objects that it knows, and from there to the objects
that these know, which may lead back to where it started. It proves which entities the walk enters: the
first one, and those at the end of a chain of changed objects.
-/

namespace ObjectStore

theorem Entity.destroyed_of_isDirty {e : Entity} (h : e.isDirty = true) : e.destroyed = false := by
  unfold isDirty at h
  cases hdestroyed : e.destroyed with
  | false => rfl
  | true =>
    rw [hdestroyed] at h
    cases h

namespace World

/-- The second entity is the object that is known to be behind a relationship of the first one. -/
def Knows (w : World) (e e' : EntityRef) : Prop :=
  e' < w.entities.size ∧ e' ∈ (w.entity e).knownRelated

/-- There is a chain of known objects to the second entity, and all of them but the first one are such as
is asked. -/
def Reaches (w : World) (P : Entity → Prop) : EntityRef → EntityRef → Prop :=
  Relation.ReflTransGen fun e e' => w.Knows e e' ∧ P (w.entity e')

/-- No two entities that can be reached stand for the same object. -/
def OneHandle (w : World) (root : EntityRef) : Prop :=
  ∀ e e', w.Reaches (fun _ => True) root e → w.Reaches (fun _ => True) root e' →
    (w.entity e).identity = (w.entity e').identity → e = e'

/-- No two entities that can be reached from any of the roots stand for the same object. -/
def OneHandleAmong (w : World) (roots : EntityRef → Prop) : Prop :=
  ∀ root root' e e', roots root → roots root' → w.Reaches (fun _ => True) root e →
    w.Reaches (fun _ => True) root' e' → (w.entity e).identity = (w.entity e').identity → e = e'

variable {w : World} {P Q : Entity → Prop} {roots : EntityRef → Prop} {e e' root : EntityRef}

theorem Reaches.mono (h : w.Reaches P e e') (hPQ : ∀ entity, P entity → Q entity)
    : w.Reaches Q e e' :=
  Relation.ReflTransGen.mono (fun _ _ hstep => ⟨hstep.1, hPQ _ hstep.2⟩) _ _ h

theorem OneHandle.eq (h : w.OneHandle root) (he : w.Reaches P root e) (he' : w.Reaches Q root e')
    (hidentity : (w.entity e).identity = (w.entity e').identity) : e = e' :=
  h e e' (he.mono fun _ _ => trivial) (he'.mono fun _ _ => trivial) hidentity

theorem Reaches.lt_size (h : w.Reaches P root e) (hroot : root < w.entities.size)
    : e < w.entities.size := by
  cases h with
  | refl => exact hroot
  | tail _ hstep => exact hstep.1.1

theorem OneHandleAmong.oneHandle (h : w.OneHandleAmong roots) (hroot : roots root) : w.OneHandle root :=
  fun e e' => h root root e e' hroot hroot

theorem oneHandleAmong_of_distinct (hroots : ∀ root, roots root → root < w.entities.size)
    (hdistinct : ∀ e < w.entities.size, ∀ e' < w.entities.size,
      (w.entity e).identity = (w.entity e').identity → e = e')
    : w.OneHandleAmong roots :=
  fun root root' e e' hroot hroot' he he' =>
    hdistinct e (he.lt_size (hroots root hroot)) e' (he'.lt_size (hroots root' hroot'))

theorem oneHandle_of_distinct (hroot : root < w.entities.size)
    (hdistinct : ∀ e < w.entities.size, ∀ e' < w.entities.size,
      (w.entity e).identity = (w.entity e').identity → e = e')
    : w.OneHandle root := by
  have hone : w.OneHandleAmong (· = root) :=
    oneHandleAmong_of_distinct (fun _ heq => heq ▸ hroot) hdistinct
  exact hone.oneHandle rfl

end World

namespace Batch

/-- The entity has been changed, and belongs to the adapter of the batch. -/
def ToSave (store : Store) (entity : Entity) : Prop :=
  entity.isDirty = true ∧ store.sameAdapter entity.store = true

variable {w : World} {b b' : Batch} {store : Store} {slot : Slot} {e e' root : EntityRef}
  {visited : List Identity} {waiting entered : List EntityRef}

theorem mem_relatedToSave_iff {entity : Entity}
    : e ∈ relatedToSave w (.empty store) entity
        ↔
      e ∈ entity.knownRelated ∧ ToSave store (w.entity e) := by
  unfold relatedToSave ToSave
  rw [List.mem_filter, Bool.and_eq_true]
  rfl

/-- What is entered can be reached from an entity that waits. -/
theorem Walks.reaches (h : Walks w store visited waiting entered)
    : ∀ e ∈ entered, ∃ start ∈ waiting,
        start < w.entities.size ∧ w.Reaches (ToSave store) start e := by
  induction h with
  | done => simp
  | missing _ _ ih | again _ _ _ ih | destroyed _ _ _ _ ih =>
    intro e he
    obtain ⟨start, hstart, hreaches⟩ := ih e he
    exact ⟨start, List.mem_cons_of_mem _ hstart, hreaches⟩
  | @enter _ first waiting _ hlt _ _ _ ih =>
    intro e he
    rcases List.mem_cons.mp he with rfl | he
    . exact ⟨e, List.mem_cons_self, hlt, .refl⟩
    . obtain ⟨start, hstart, hstart_lt, hreaches⟩ := ih e he
      rcases List.mem_append.mp hstart with hrelated | hwaiting
      . obtain ⟨hknown, hsave⟩ := mem_relatedToSave_iff.mp (List.mem_reverse.mp hrelated)
        exact ⟨first, List.mem_cons_self, hlt, .head ⟨⟨hstart_lt, hknown⟩, hsave⟩ hreaches⟩
      . exact ⟨start, List.mem_cons_of_mem _ hwaiting, hstart_lt, hreaches⟩

theorem Walks.reaches_root (h : Walks w store visited [root] entered) (he : e ∈ entered)
    : w.Reaches (ToSave store) root e := by
  obtain ⟨start, hstart, _, hreaches⟩ := h.reaches e he
  rw [List.mem_singleton.mp hstart] at hreaches
  exact hreaches

/-- The object of the entity was met before, or is entered. -/
def Met (w : World) (visited : List Identity) (entered : List EntityRef) (e : EntityRef) : Prop :=
  (w.entity e).identity ∈ visited ∨ ∃ e' ∈ entered, (w.entity e').identity = (w.entity e).identity

theorem Met.of_cons {first : EntityRef}
    (h : Met w ((w.entity first).identity :: visited) entered e)
    : Met w visited (first :: entered) e := by
  rcases h with hvisited | ⟨e', he', hidentity⟩
  . rcases List.mem_cons.mp hvisited with hfirst | hvisited
    . exact .inr ⟨first, List.mem_cons_self, hfirst.symm⟩
    . exact .inl hvisited
  . exact .inr ⟨e', List.mem_cons_of_mem first he', hidentity⟩

theorem lives_of_mem_enter {first : EntityRef}
    (hlives : ∀ e ∈ first :: waiting, (w.entity e).destroyed = false)
    : ∀ e ∈ (relatedToSave w (.empty store) (w.entity first)).reverse ++ waiting,
        (w.entity e).destroyed = false := by
  intro e he
  rcases List.mem_append.mp he with hrelated | hwaiting
  . exact Entity.destroyed_of_isDirty (mem_relatedToSave_iff.mp (List.mem_reverse.mp hrelated)).2.1
  . exact hlives e (List.mem_cons_of_mem first hwaiting)

/-- No entity that waits is forgotten. -/
theorem Walks.met (h : Walks w store visited waiting entered)
    (hlives : ∀ e ∈ waiting, (w.entity e).destroyed = false)
    : ∀ e ∈ waiting, e < w.entities.size → Met w visited entered e := by
  induction h with
  | done => simp
  | missing hmissing _ ih =>
    intro e he hlt
    rcases List.mem_cons.mp he with rfl | he
    . exact absurd hlt (Nat.not_lt.mpr hmissing)
    . exact ih (List.forall_mem_cons.mp hlives).2 e he hlt
  | again _ hvisited _ ih =>
    intro e he hlt
    rcases List.mem_cons.mp he with rfl | he
    . exact .inl hvisited
    . exact ih (List.forall_mem_cons.mp hlives).2 e he hlt
  | destroyed _ _ hdestroyed _ _ =>
    rw [hlives _ List.mem_cons_self] at hdestroyed
    cases hdestroyed
  | enter _ _ _ _ ih =>
    intro e he hlt
    rcases List.mem_cons.mp he with rfl | he
    . exact .inr ⟨e, List.mem_cons_self, rfl⟩
    . exact (ih (lives_of_mem_enter hlives) e (List.mem_append_right _ he) hlt).of_cons

/-- A chain of changed objects that starts from an entered one does not leave the objects that were met. -/
theorem Walks.closed (h : Walks w store visited waiting entered)
    (hlives : ∀ e ∈ waiting, (w.entity e).destroyed = false)
    : ∀ e ∈ entered, ∀ e', w.Knows e e' → ToSave store (w.entity e') → Met w visited entered e' := by
  induction h with
  | done => simp
  | missing _ _ ih | again _ _ _ ih => exact ih (List.forall_mem_cons.mp hlives).2
  | destroyed _ _ hdestroyed _ _ =>
    rw [hlives _ List.mem_cons_self] at hdestroyed
    cases hdestroyed
  | @enter _ _ waiting _ _ _ _ hwalk ih =>
    intro e he e' hknows hsave
    rcases List.mem_cons.mp he with rfl | he
    . have hwaits := List.mem_append_left waiting
        (List.mem_reverse.mpr (mem_relatedToSave_iff.mpr ⟨hknows.2, hsave⟩))
      exact (hwalk.met (lives_of_mem_enter hlives) e' hwaits hknows.1).of_cons
    . exact (ih (lives_of_mem_enter hlives) e he e' hknows hsave).of_cons

/-- A save enters the entities to be saved that it reaches, and no others. -/
theorem Walks.mem_entered_iff (h : Walks w store [] [root] entered) (hroot : root < w.entities.size)
    (hlives : (w.entity root).destroyed = false) (hone : w.OneHandle root)
    : e ∈ entered ↔ w.Reaches (ToSave store) root e := by
  have hwaiting : ∀ e ∈ [root], (w.entity e).destroyed = false := by simpa using hlives
  -- What was met is entered, as no other entity stands for the same object.
  have hmet : ∀ e, w.Reaches (ToSave store) root e → Met w [] entered e → e ∈ entered := by
    rintro e he (hvisited | ⟨e', he', hidentity⟩)
    . cases hvisited
    . rw [← hone.eq (h.reaches_root he') he hidentity]
      exact he'
  refine ⟨h.reaches_root, ?_⟩
  intro he
  induction he with
  | refl => exact hmet root .refl (h.met hwaiting root List.mem_cons_self hroot)
  | tail hbefore hstep ih =>
    exact hmet _ (hbefore.tail hstep) (h.closed hwaiting _ ih _ hstep.1 hstep.2)

theorem Walks.eq_nil_of_destroyed (h : Walks w store [] [root] entered)
    (hdestroyed : (w.entity root).destroyed = true) : entered = [] := by
  cases h with
  | missing _ h | again _ _ h | destroyed _ _ _ h =>
    cases h
    rfl
  | enter _ _ hlives _ =>
    rw [hdestroyed] at hlives
    cases hlives

end Batch

end ObjectStore
