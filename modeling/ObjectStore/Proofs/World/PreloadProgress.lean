import ObjectStore.Proofs.World.PreloadArrival

/-!
This module contains what it means to follow relationships ahead of time step by step: each step sends
some of the calls that are due, links some owners, and leaves everything else for the steps after it.
-/

namespace ObjectStore

/-- A relationship of an entity. -/
abbrev LinkRef := EntityRef × String

namespace Branch

mutual

/-- The relationships that wait for a call which is under way. -/
def links : Branch → List LinkRef
  | calling call _ _ => call.owners.map fun owner => (owner.1, call.relation)
  | descending branches => allLinks branches
  | finished | failed _ => []

def allLinks : List Branch → List LinkRef
  | [] => []
  | b :: bs => b.links ++ allLinks bs

end

mutual

/-- The calls that are still to be sent. -/
def due (a : Adapter) : Branch → List AdapterCall
  | calling call _ below =>
    below.calls a call.store call.foreignType
      (call.ids.filterMap (a.object? call.store call.foreignType))
  | descending branches => allDue a branches
  | finished | failed _ => []

def allDue (a : Adapter) : List Branch → List AdapterCall
  | [] => []
  | b :: bs => b.due a ++ allDue a bs

end

mutual

/-- No error waits to be reported. -/
def healthy : Branch → Bool
  | calling .. | finished => true
  | descending branches => allHealthy branches
  | failed _ => false

def allHealthy : List Branch → Bool
  | [] => true
  | b :: bs => b.healthy && allHealthy bs

end

theorem allLinks_singleton (b : Branch) : allLinks [b] = b.links := by
  rw [allLinks, allLinks, List.append_nil]

theorem allDue_singleton (a : Adapter) (b : Branch) : allDue a [b] = b.due a := by
  rw [allDue, allDue, List.append_nil]

/-- Branches that have all finished wait for nothing. -/
theorem settled_of_all_isFinished (a : Adapter) {branches : List Branch}
    (h : branches.all isFinished = true)
    : allLinks branches = [] ∧ allDue a branches = [] ∧ allHealthy branches = true := by
  induction branches with
  | nil => exact ⟨rfl, rfl, rfl⟩
  | cons b bs ih =>
    rw [List.all_cons, Bool.and_eq_true] at h
    cases b with
    | finished =>
      rw [allLinks, allDue, allHealthy, links, due, healthy]
      exact ih h.2
    | _ => cases h.1

theorem ofBranches_eq (a : Adapter) (branches : List Branch)
    : (ofBranches branches).links = allLinks branches
        ∧
      (ofBranches branches).due a = allDue a branches
        ∧
      (ofBranches branches).healthy = allHealthy branches := by
  unfold ofBranches
  split
  . next h =>
    obtain ⟨hlinks, hdue, hhealthy⟩ := settled_of_all_isFinished a h
    rw [hlinks, hdue, hhealthy, links, due, healthy]
    exact ⟨rfl, rfl, rfl⟩
  . rw [links, due, healthy]
    exact ⟨rfl, rfl, rfl⟩

end Branch

/-- An error that is held back makes the branch unhealthy. -/
theorem Reporting.eq_ok_of_healthy {reporting : Reporting} {result : Except StoreError Branch}
    {branch : Branch} (h : reporting.hold result = .ok branch) (hhealthy : branch.healthy = true)
    : result = .ok branch := by
  unfold hold at h
  split at h
  . cases h
    rw [Branch.healthy] at hhealthy
    cases hhealthy
  . exact h

namespace World

variable {w w' w₁ w₂ : World} {store : Store} {t foreign : ObjectType} {a : Adapter}
  {ref : AdapterRef} {e : EntityRef} {owners : List EntityRef} {name : String}
  {target : String → Option EntityRef} {links links' : List LinkRef} {due due' : List AdapterCall}

/-- The relationships are those of entities, each occurs once, and nothing is known of the objects
that they lead to. -/
structure Ready (w : World) (links : List LinkRef) : Prop where
  nodup : links.Nodup
  lt : ∀ s ∈ links, s.1 < w.entities.size
  unknown : ∀ s ∈ links, (w.entity s.1).links.get? s.2 = none

theorem Ready.perm (h : w.Ready links) (hperm : links.Perm links') : w.Ready links' where
  nodup := hperm.nodup_iff.1 h.nodup
  lt s hs := h.lt s (hperm.mem_iff.2 hs)
  unknown s hs := h.unknown s (hperm.mem_iff.2 hs)

theorem Ready.left (h : w.Ready (links ++ links')) : w.Ready links where
  nodup := (List.nodup_append.1 h.nodup).1
  lt s hs := h.lt s (List.mem_append_left _ hs)
  unknown s hs := h.unknown s (List.mem_append_left _ hs)

theorem Ready.right (h : w.Ready (links ++ links')) : w.Ready links' :=
  (h.perm List.perm_append_comm).left

theorem entity_of_entities_eq (h : w'.entities = w.entities) : w'.entity = w.entity := by
  funext e
  unfold entity
  rw [h]

theorem Ready.aside (h : w.Ready links) (hentities : w'.entities = w.entities) : w'.Ready links := by
  refine ⟨h.nodup, ?_, ?_⟩
  . rw [hentities]
    exact h.lt
  . rw [entity_of_entities_eq hentities]
    exact h.unknown

/-- Entities may be new or linked to more objects than before, but nothing else has changed about
them. -/
structure Grows (w w' : World) : Prop where
  size_le : w.entities.size ≤ w'.entities.size
  content : ∀ e < w.entities.size, w'.content e = w.content e
  resolved : ∀ e < w.entities.size, ∀ name target,
    (w.entity e).links.get? name = some (.resolved target) →
      (w'.entity e).links.get? name = some (.resolved target)

theorem Grows.refl (w : World) : Grows w w :=
  ⟨Nat.le_refl _, fun _ _ => rfl, fun _ _ _ _ h => h⟩

theorem Grows.trans (h : Grows w w₁) (h' : Grows w₁ w₂) : Grows w w₂ where
  size_le := Nat.le_trans h.size_le h'.size_le
  content e he := by
    rw [h'.content e (Nat.lt_of_lt_of_le he h.size_le), h.content e he]
  resolved e he name target hlink :=
    h'.resolved e (Nat.lt_of_lt_of_le he h.size_le) name target (h.resolved e he name target hlink)

theorem grows_of_entities_eq (h : w'.entities = w.entities) : Grows w w' := by
  constructor
  . exact Nat.le_of_eq (congrArg Array.size h).symm
  . intro e _
    unfold content
    rw [entity_of_entities_eq h]
  . intro e _ name target hlink
    rw [entity_of_entities_eq h]
    exact hlink

/-- An adapter has got some calls, and nothing else has changed about the adapters. -/
structure Asked (ref : AdapterRef) (calls : List AdapterCall) (w w' : World) : Prop where
  size : w'.adapters.size = w.adapters.size
  adapter : ref < w.adapters.size →
    w'.adapter ref = { w.adapter ref with log := calls.reverse ++ (w.adapter ref).log }
  other : ∀ ref', ref' ≠ ref → w'.adapter ref' = w.adapter ref'

theorem asked_of_adapters_eq (h : w'.adapters = w.adapters) (ref : AdapterRef)
    : Asked ref [] w w' where
  size := by rw [h]
  adapter _ := by
    unfold World.adapter
    rw [h]
    rfl
  other _ _ := by
    unfold World.adapter
    rw [h]

theorem Asked.trans {calls calls' : List AdapterCall} (h : Asked ref calls w w₁)
    (h' : Asked ref calls' w₁ w₂) : Asked ref (calls ++ calls') w w₂ where
  size := by rw [h'.size, h.size]
  adapter href := by
    rw [h'.adapter (h.size ▸ href), h.adapter href, List.reverse_append, List.append_assoc]
  other ref' hne := by rw [h'.other ref' hne, h.other ref' hne]

theorem asked_send (w : World) (ref : AdapterRef) (call : AdapterCall)
    : Asked ref [call] w (w.send ref call).2 where
  size := Array.size_modify
  adapter href := w.adapter_modifyAdapter_self href _
  other _ hne := w.adapter_modifyAdapter_of_ne hne _

/-- The adapter of a store answers from given data. -/
structure Serves (a : Adapter) (store : Store) (w : World) : Prop where
  lt : store.adapter < w.adapters.size
  adapter : ∃ log, w.adapter store.adapter = { a with log }

theorem Asked.serves {calls : List AdapterCall} (h : Asked store.adapter calls w w')
    (hserves : w.Serves a store) : w'.Serves a store := by
  obtain ⟨hlt, log, hadapter⟩ := hserves
  refine ⟨h.size ▸ hlt, calls.reverse ++ log, ?_⟩
  rw [h.adapter hlt, hadapter]

theorem Serves.aside (h : w.Serves a store) (hadapters : w'.adapters = w.adapters)
    : w'.Serves a store :=
  (asked_of_adapters_eq hadapters store.adapter).serves h

/-- A world on the way, with the relationships that wait for calls and the calls still to be sent. -/
structure Stage where
  world : World
  links : List LinkRef
  due : List AdapterCall

/-- From one stage to another one. The relationships that do not wait for any call of the stage remain
as they are. -/
structure Progress (ref : AdapterRef) (s s' : Stage) : Prop where
  grows : Grows s.world s'.world
  ready : ∀ others, s.world.Ready (s.links ++ others) → s'.world.Ready (s'.links ++ others)
  asked : ∃ calls, Asked ref calls s.world s'.world ∧ (calls ++ s'.due).Perm s.due

theorem Progress.refl (ref : AdapterRef) (s : Stage) : Progress ref s s :=
  ⟨.refl _, fun _ h => h, [], asked_of_adapters_eq rfl ref, .refl _⟩

theorem Progress.trans {s₁ s₂ s₃ : Stage} (h : Progress ref s₁ s₂) (h' : Progress ref s₂ s₃)
    : Progress ref s₁ s₃ := by
  obtain ⟨calls, hasked, hperm⟩ := h.asked
  obtain ⟨calls', hasked', hperm'⟩ := h'.asked
  refine ⟨h.grows.trans h'.grows, fun others hready => h'.ready others (h.ready others hready),
    calls ++ calls', hasked.trans hasked', ?_⟩
  rw [List.append_assoc]
  exact (hperm'.append_left calls).trans hperm

/-- What is apart from the entities and the adapters does not count. -/
theorem progress_aside (hentities : w'.entities = w.entities) (hadapters : w'.adapters = w.adapters)
    (ref : AdapterRef) (links : List LinkRef) (due : List AdapterCall)
    : Progress ref ⟨w, links, due⟩ ⟨w', links, due⟩ where
  grows := grows_of_entities_eq hentities
  ready _ h := h.aside hentities
  asked := ⟨[], asked_of_adapters_eq hadapters ref, .refl _⟩

theorem progress_clock (w : World) (clock : Nat) (ref : AdapterRef) (links : List LinkRef)
    (due : List AdapterCall) : Progress ref ⟨w, links, due⟩ ⟨{ w with clock }, links, due⟩ := by
  apply progress_aside <;> rfl

/-- More relationships wait, and more calls are due. -/
def Stage.beside (s : Stage) (links : List LinkRef) (due : List AdapterCall) : Stage :=
  ⟨s.world, s.links ++ links, s.due ++ due⟩

theorem Progress.beside {s s' : Stage} (h : Progress ref s s') (links : List LinkRef)
    (due : List AdapterCall) : Progress ref (s.beside links due) (s'.beside links due) := by
  obtain ⟨calls, hasked, hperm⟩ := h.asked
  refine ⟨h.grows, ?_, calls, hasked, ?_⟩
  . intro others hready
    unfold Stage.beside at hready ⊢
    rw [List.append_assoc] at hready ⊢
    exact h.ready _ hready
  . unfold Stage.beside
    rw [← List.append_assoc]
    exact hperm.append_right due

/-- The order of the relationships and of the calls that are due does not count. -/
theorem Progress.of_perm {s s' r r' : Stage} (h : Progress ref s s') (hworld : r.world = s.world)
    (hlinks : r.links.Perm s.links) (hdue : r.due.Perm s.due) (hworld' : r'.world = s'.world)
    (hlinks' : r'.links.Perm s'.links) (hdue' : r'.due.Perm s'.due) : Progress ref r r' := by
  obtain ⟨calls, hasked, hperm⟩ := h.asked
  constructor
  . rw [hworld, hworld']
    exact h.grows
  . intro others hready
    rw [hworld] at hready
    rw [hworld']
    exact (h.ready others (hready.perm (hlinks.append_right others))).perm
      (hlinks'.symm.append_right others)
  . refine ⟨calls, ?_, ?_⟩
    . rw [hworld, hworld']
      exact hasked
    . exact ((hdue'.append_left calls).trans hperm).trans hdue.symm

theorem Progress.after {s s' : Stage} (h : Progress ref s s') (links : List LinkRef)
    (due : List AdapterCall)
    : Progress ref ⟨s.world, links ++ s.links, due ++ s.due⟩
        ⟨s'.world, links ++ s'.links, due ++ s'.due⟩ :=
  (h.beside links due).of_perm rfl List.perm_append_comm List.perm_append_comm rfl
    List.perm_append_comm List.perm_append_comm

end World

end ObjectStore
