import Mathlib.Data.List.Pairwise
import Mathlib.Logic.Relation
import ObjectStore.Proofs.World.Tasks

/-!
This module follows the links of entities through everything that goes on at the same time: objects are
loaded and preloaded, copied, reloaded and written, and relationships are set meanwhile. It proves that
a link never leads to another object than its foreign id names, and that a load which was replaced
completes for those who wait for it, but for nobody else.
-/

namespace ObjectStore

/-- A task that has not finished, and the entities that it made and has not handed out. -/
structure Errand where
  task : Task
  made : List EntityRef

structure LinkSession where
  world : World
  errands : List Errand

namespace LinkSession

/-- The entity has been handed out. -/
def Open (s : LinkSession) (e : EntityRef) : Prop :=
  e < s.world.entities.size ∧ ∀ errand ∈ s.errands, e ∉ errand.made

/-- What is left of a task that has just gone on in a world. It keeps the entities that it made until it
finishes. -/
def left (w : World) (made : List EntityRef) (out : Task × World) : List Errand :=
  if out.1.isFinished then []
  else [⟨out.1, made ++ List.range' w.entities.size (out.2.entities.size - w.entities.size)⟩]

/-- The steps, each with the relationships of open entities that it may touch. Whatever the
application asks for in between, the entities that it sets and reloads have been handed out to it. -/
inductive Step : (EntityRef → String → Prop) → LinkSession → LinkSession → Prop where
  | start {w : World} {errands : List Errand} {request : Request} (hnamed : request.WellNamed)
    (hopen : ∀ e name, request.Touches e name → Open ⟨w, errands⟩ e)
    : Step request.Touches ⟨w, errands⟩
        ⟨(w.start request).2, errands ++ left w [] (w.start request)⟩
  | poll {w : World} {before after : List Errand} {errand : Errand}
    : Step (errand.task.Touches w) ⟨w, before ++ errand :: after⟩
        ⟨(w.poll errand.task).2, before ++ left w errand.made (w.poll errand.task) ++ after⟩
  | drop {w : World} {before after : List Errand} {errand : Errand}
    : Step World.nowhere ⟨w, before ++ errand :: after⟩ ⟨w, before ++ after⟩
  | set {w : World} {errands : List Errand} (e : EntityRef) (name : String) (v : Value)
    : Step World.nowhere ⟨w, errands⟩ ⟨(w.set e name v).2, errands⟩
  | setRelated {w : World} {errands : List Errand} {e : EntityRef} (name : String)
    {target : Option EntityRef} (hopen : Open ⟨w, errands⟩ e)
    (htarget : ∀ t, target = some t → t < w.entities.size)
    : Step (fun e' name' => e' = e ∧ name' = name) ⟨w, errands⟩
        ⟨(w.setRelated e name target).2, errands⟩
  | setRelatedId {w : World} {errands : List Errand} {e : EntityRef} (name : String)
    (id : Option String) (hopen : Open ⟨w, errands⟩ e)
    : Step (fun e' name' => e' = e ∧ name' = name) ⟨w, errands⟩
        ⟨(w.setRelatedId e name id).2, errands⟩
  | hasMany {w : World} {errands : List Errand} (e : EntityRef) (name : String)
    : Step World.nowhere ⟨w, errands⟩ ⟨(w.hasMany e name).2, errands⟩
  | create {w : World} {errands : List Errand} {store : Store} (hstore : store.schema.WellNamed)
    (typeName : String) : Step World.nowhere ⟨w, errands⟩ ⟨(w.create store typeName).2, errands⟩
  | build {w : World} {errands : List Errand} {store : Store} (hstore : store.schema.WellNamed)
    (r : Record) : Step World.nowhere ⟨w, errands⟩ ⟨(w.build store r).2, errands⟩
  | copyAs {w : World} {errands : List Errand} {e : EntityRef} (he : e < w.entities.size)
    (typeName : Option String)
    : Step World.nowhere ⟨w, errands⟩ ⟨(w.copyAs e typeName).2, errands⟩
  | outside {w w' : World} {errands : List Errand} (hentities : w'.entities = w.entities)
    (hloads : w'.loads = w.loads) (hadapters : w.adapters.size ≤ w'.adapters.size)
    (hclock : w.clock ≤ w'.clock) (hkept : ∀ a, (w'.adapter a).WellKept)
    : Step World.nowhere ⟨w, errands⟩ ⟨w', errands⟩

def Steps : LinkSession → LinkSession → Prop :=
  Relation.ReflTransGen fun s s' => ∃ touched, Step touched s s'

/-- A beginning with records in the adapters, and nothing in memory. -/
structure Fresh (s : LinkSession) : Prop where
  entities : s.world.entities = #[]
  loads : s.world.loads = #[]
  errands : s.errands = []
  wellKept : ∀ a, (s.world.adapter a).WellKept

/-- What every session keeps. The entities that a task hides are its own, and no task that replaces
foreign ids is about one of them. -/
structure Valid (s : LinkSession) : Prop where
  coherent : s.world.Coherent
  sound : ∀ errand ∈ s.errands, errand.task.Sound s.world (· ∈ errand.made)
  made_lt : ∀ errand ∈ s.errands, ∀ e ∈ errand.made, e < s.world.entities.size
  reloads : ∀ errand ∈ s.errands, ∀ e name, errand.task.Reloads e name → s.Open e
  apart : s.errands.Pairwise fun a b => a.made.Disjoint b.made

end LinkSession

namespace Task

variable {ids links : EntityRef → String → Prop} {hidden hidden' : EntityRef → Prop} {w w' : World}
  {t : Task}

theorem Sound.frame (h : t.Sound w hidden) (hframe : World.Frame ids links w w')
    (hids : ∀ e name, hidden e → ¬ids e name) : t.Sound w' hidden := by
  cases t with
  | preloading es branches single => exact fun call hmem => hframe.soundCall hids (h call hmem)
  | _ => exact h

theorem Sound.mono (h : t.Sound w hidden) (himp : ∀ e < w.entities.size, hidden e → hidden' e)
    : t.Sound w hidden' := by
  cases t with
  | preloading es branches single =>
    intro call hmem
    have hcall := h call hmem
    refine { hcall with hidden := ?_ }
    intro owner id howner
    exact himp owner (hcall.owner_lt owner id howner) (hcall.hidden owner id howner)
  | _ => exact h

end Task

namespace LinkSession

variable {ids links touched : EntityRef → String → Prop} {w w' : World}
  {errands before after : List Errand} {errand : Errand} {s s' s'' : LinkSession} {e : EntityRef}
  {name : String}

theorem Fresh.valid (h : s.Fresh) : s.Valid := by
  obtain ⟨hentities, hloads, herrands, hkept⟩ := h
  have hnone : ∀ e, ¬e < s.world.entities.size := by
    rw [hentities]
    exact fun e => Nat.not_lt_zero e
  refine ⟨⟨fun e he => absurd he (hnone e), ?_, fun e he => absurd he (hnone e), hkept⟩, ?_, ?_, ?_,
    ?_⟩
  . intro l load hload
    unfold World.load? at hload
    rw [hloads] at hload
    cases hload
  all_goals
    rw [herrands]
    simp

/-- The world changes, and nothing that is hidden gets other foreign ids. -/
theorem Valid.world (h : Valid ⟨w, errands⟩) (hevolves : World.Evolves ids links w w')
    (hids : ∀ e name, ids e name → Open ⟨w, errands⟩ e) : Valid ⟨w', errands⟩ := by
  refine ⟨hevolves.coherent, ?_, ?_, ?_, h.apart⟩
  . intro errand herrand
    apply (h.sound errand herrand).frame hevolves.toFrame
    intro e name hmade hid
    exact (hids e name hid).2 errand herrand hmade
  . intro errand herrand e he
    exact Nat.lt_of_lt_of_le (h.made_lt errand herrand e he) hevolves.entities_le
  . intro errand herrand e name hreloads
    obtain ⟨hlt, hopen⟩ := h.reloads errand herrand e name hreloads
    exact ⟨Nat.lt_of_lt_of_le hlt hevolves.entities_le, hopen⟩

theorem rest_sublist (before : List Errand) (errand : Errand) (after : List Errand)
    : (before ++ after).Sublist (before ++ errand :: after) :=
  (List.sublist_cons_self errand after).append_left before

theorem Open.without (h : Open ⟨w, before ++ errand :: after⟩ e) : Open ⟨w, before ++ after⟩ e :=
  ⟨h.1, fun other hother => h.2 other ((rest_sublist before errand after).subset hother)⟩

theorem Valid.without (h : Valid ⟨w, before ++ errand :: after⟩) : Valid ⟨w, before ++ after⟩ := by
  have hrest := rest_sublist before errand after
  refine ⟨h.coherent, ?_, ?_, ?_, h.apart.sublist hrest⟩
  . exact fun other hother => h.sound other (hrest.subset hother)
  . exact fun other hother => h.made_lt other (hrest.subset hother)
  . exact fun other hother e name hreloads =>
      Open.without (h.reloads other (hrest.subset hother) e name hreloads)

theorem Valid.add (h : Valid ⟨w, before ++ after⟩) (hsound : errand.task.Sound w (· ∈ errand.made))
    (hlt : ∀ e ∈ errand.made, e < w.entities.size)
    (hreloads : ∀ e name, errand.task.Reloads e name →
      Open ⟨w, before ++ after⟩ e ∧ e ∉ errand.made)
    (hapart : ∀ other ∈ before ++ after, errand.made.Disjoint other.made)
    (hkeeps : ∀ other ∈ before ++ after, ∀ e name, other.task.Reloads e name → e ∉ errand.made)
    : Valid ⟨w, before ++ errand :: after⟩ := by
  have hmem : ∀ other, other ∈ before ++ errand :: after ↔ other = errand ∨ other ∈ before ++ after := by
    intro other
    rw [List.mem_append, List.mem_cons, List.mem_append, or_left_comm]
  refine ⟨h.coherent, ?_, ?_, ?_, ?_⟩
  . intro other hother
    rcases (hmem other).1 hother with rfl | hother
    . exact hsound
    . exact h.sound other hother
  . intro other hother
    rcases (hmem other).1 hother with rfl | hother
    . exact hlt
    . exact h.made_lt other hother
  . intro other hother e name hreload
    have hopen : Open ⟨w, before ++ after⟩ e ∧ e ∉ errand.made := by
      rcases (hmem other).1 hother with rfl | hother
      . exact hreloads e name hreload
      . exact ⟨h.reloads other hother e name hreload, hkeeps other hother e name hreload⟩
    refine ⟨hopen.1.1, ?_⟩
    intro other' hother'
    rcases (hmem other').1 hother' with rfl | hother'
    . exact hopen.2
    . exact hopen.1.2 other' hother'
  . change List.Pairwise _ (before ++ errand :: after)
    rw [List.pairwise_middle List.disjoint_symm,
      List.pairwise_cons]
    exact ⟨hapart, h.apart⟩

/-- A task goes on, beside others that wait. -/
theorem Valid.leave (h : Valid ⟨w, before ++ after⟩) {made : List EntityRef} {out : Task × World}
    (hproceeds : World.Proceeds ids links (fun e => e ∈ made ∨ w.entities.size ≤ e) w out)
    (hids : ∀ e name, ids e name → Open ⟨w, before ++ after⟩ e ∧ e ∉ made)
    (hlt : ∀ e ∈ made, e < w.entities.size)
    (hapart : ∀ other ∈ before ++ after, made.Disjoint other.made)
    (hkeeps : ∀ other ∈ before ++ after, ∀ e name, other.task.Reloads e name → e ∉ made)
    : Valid ⟨out.2, before ++ left w made out ++ after⟩ := by
  have hrest := h.world hproceeds.evolves fun e name hid => (hids e name hid).1
  unfold left
  split
  . rw [List.append_nil]
    exact hrest
  rw [List.append_assoc, List.singleton_append]
  -- The task hides what it has made so far, and what is new since the step began.
  have hmade : ∀ e, e ∈ made ++ List.range' w.entities.size (out.2.entities.size - w.entities.size)
      ↔ e ∈ made ∨ w.entities.size ≤ e ∧ e < out.2.entities.size := by
    intro e
    have hle := hproceeds.evolves.entities_le
    rw [List.mem_append, List.mem_range'_1]
    have hsum : w.entities.size + (out.2.entities.size - w.entities.size) = out.2.entities.size := by
      omega
    rw [hsum]
  apply hrest.add
  . apply hproceeds.sound.mono
    intro e he hhidden
    exact (hmade e).2 (hhidden.imp_right fun hle => ⟨hle, he⟩)
  . intro e he
    rcases (hmade e).1 he with he | he
    . exact Nat.lt_of_lt_of_le (hlt e he) hproceeds.evolves.entities_le
    . exact he.2
  . intro e name hreload
    obtain ⟨hopen, hnot⟩ := hids e name (hproceeds.reloads e name hreload)
    refine ⟨⟨Nat.lt_of_lt_of_le hopen.1 hproceeds.evolves.entities_le, hopen.2⟩, ?_⟩
    rw [hmade]
    rintro (he | he)
    . exact hnot he
    . exact Nat.not_lt.2 he.1 hopen.1
  . intro other hother e he hother'
    rcases (hmade e).1 he with he | he
    . exact hapart other hother he hother'
    . exact Nat.not_lt.2 he.1 (h.made_lt other hother e hother')
  . intro other hother e name hreload
    rw [hmade]
    rintro (he | he)
    . exact hkeeps other hother e name hreload he
    . exact Nat.not_lt.2 he.1 (h.reloads other hother e name hreload).1

theorem touches_of_reloads_request {request : Request} (h : request.Reloads e name)
    : request.Touches e name := by
  cases request with
  | reload e' => exact h
  | _ => cases h

theorem touches_of_reloads_task {t : Task} (h : t.Reloads e name) : t.Touches w e name := by
  cases t with
  | calling job deadline => exact h
  | _ => cases h

theorem Valid.start (h : Valid ⟨w, errands⟩) {request : Request} (hnamed : request.WellNamed)
    (hopen : ∀ e name, request.Touches e name → Open ⟨w, errands⟩ e)
    : Valid ⟨(w.start request).2, errands ++ left w [] (w.start request)⟩
        ∧
      World.Evolves request.Touches
        (fun e name => request.Touches e name ∨ ¬Open ⟨w, errands⟩ e) w (w.start request).2 := by
  have hstarted : World.Proceeds request.Reloads
      (fun e name => request.Touches e name ∨ w.entities.size ≤ e)
      (fun e => e ∈ [] ∨ w.entities.size ≤ e) w (w.start request) := by
    apply h.coherent.start hnamed
    . exact fun e he => .inr he
    . rintro e name rfl
      exact (hopen e name ⟨rfl, rfl⟩).1
    . exact fun e name hreload => hreload
    . rintro e name (htouch | hmade | hnew)
      . exact .inl htouch
      . cases hmade
      . exact .inr hnew
  constructor
  . have hvalid : Valid ⟨w, errands ++ []⟩ := by
      rw [List.append_nil]
      exact h
    rw [← List.append_nil (errands ++ left w [] (w.start request))]
    apply hvalid.leave hstarted
    . intro e name hreload
      rw [List.append_nil]
      exact ⟨hopen e name (touches_of_reloads_request hreload), List.not_mem_nil⟩
    . exact fun e => nofun
    . exact fun _ _ e => nofun
    . exact fun _ _ _ _ _ => List.not_mem_nil
  . apply hstarted.evolves.mono fun e name => touches_of_reloads_request
    rintro e name (htouch | hle)
    . exact .inl htouch
    . exact .inr fun hopen => absurd hopen.1 (Nat.not_lt.2 hle)

theorem Valid.poll (h : Valid ⟨w, before ++ errand :: after⟩)
    : Valid ⟨(w.poll errand.task).2, before ++ left w errand.made (w.poll errand.task) ++ after⟩
        ∧
      World.Evolves (errand.task.Touches w)
        (fun e name => errand.task.Touches w e name ∨ ¬Open ⟨w, before ++ errand :: after⟩ e) w
        (w.poll errand.task).2 := by
  have herrand : errand ∈ before ++ errand :: after := List.mem_append_cons_self
  have hrest := (rest_sublist before errand after).subset
  have hpolled : World.Proceeds errand.task.Reloads
      (fun e name => errand.task.Touches w e name ∨ e ∈ errand.made ∨ w.entities.size ≤ e)
      (fun e => e ∈ errand.made ∨ w.entities.size ≤ e) w (w.poll errand.task) := by
    apply h.coherent.poll
    . exact (h.sound errand herrand).mono fun e _ => .inl
    . exact fun e he => .inr he
    . exact fun e name hreload => hreload
    . exact fun e name hlink => hlink
  have hapart : List.Pairwise _ (before ++ errand :: after) := h.apart
  rw [List.pairwise_middle List.disjoint_symm, List.pairwise_cons] at hapart
  constructor
  . apply h.without.leave hpolled
    . intro e name hreload
      have hopen := h.reloads errand herrand e name hreload
      exact ⟨Open.without hopen, hopen.2 errand herrand⟩
    . exact h.made_lt errand herrand
    . exact hapart.1
    . intro other hother e name hreload
      exact (h.reloads other (hrest hother) e name hreload).2 errand herrand
  . apply hpolled.evolves.mono fun e name => touches_of_reloads_task
    rintro e name (htouch | hmade | hle)
    . exact .inl htouch
    . exact .inr fun hopen => hopen.2 errand herrand hmade
    . exact .inr fun hopen => absurd hopen.1 (Nat.not_lt.2 hle)

theorem Valid.change (h : Valid ⟨w, errands⟩) (hevolves : World.Evolves touched touched w w')
    (hopen : ∀ e name, touched e name → Open ⟨w, errands⟩ e)
    : Valid ⟨w', errands⟩
        ∧
      World.Evolves touched (fun e name => touched e name ∨ ¬Open ⟨w, errands⟩ e) w w' :=
  ⟨h.world hevolves hopen, hevolves.mono (fun _ _ h => h) fun _ _ => .inl⟩

/-- A step touches open entities only where it says so, and no foreign ids but these. -/
theorem Valid.step (h : s.Valid) (hstep : Step touched s s')
    : s'.Valid
        ∧
      World.Evolves touched (fun e name => touched e name ∨ ¬s.Open e) s.world s'.world := by
  cases hstep with
  | start hnamed hopen => exact h.start hnamed hopen
  | poll => exact h.poll
  | drop => exact ⟨h.without, h.coherent.evolves_refl⟩
  | set e name v => exact h.change (h.coherent.set e name v) World.nowhere_le
  | setRelated name hopen htarget =>
    apply h.change (h.coherent.setRelated ⟨rfl, rfl⟩ ⟨rfl, rfl⟩ htarget)
    rintro e name ⟨rfl, rfl⟩
    exact hopen
  | setRelatedId name id hopen =>
    apply h.change (h.coherent.setRelatedId ⟨rfl, rfl⟩ ⟨rfl, rfl⟩)
    rintro e name ⟨rfl, rfl⟩
    exact hopen
  | hasMany e name => exact h.change (h.coherent.hasMany e name) World.nowhere_le
  | create hstore typeName => exact h.change (h.coherent.create hstore typeName) World.nowhere_le
  | build hstore r => exact h.change (h.coherent.build hstore r) World.nowhere_le
  | copyAs he typeName => exact h.change (h.coherent.copyAs he typeName) World.nowhere_le
  | outside hentities hloads hadapters hclock hkept =>
    exact h.change (h.coherent.aside hentities hloads hadapters hclock hkept) World.nowhere_le

theorem Steps.valid (h : s.Valid) (hsteps : Steps s s') : s'.Valid := by
  induction hsteps with
  | refl => exact h
  | tail _ hstep ih =>
    obtain ⟨_, hstep⟩ := hstep
    exact (ih.step hstep).1

theorem Steps.loads (h : s.Valid) (hsteps : Steps s s') {l : LoadRef} {load : Load}
    (hload : s.world.load? l = some load)
    : ∃ load', s'.world.load? l = some load' ∧ load.Continues load' := by
  induction hsteps with
  | refl => exact ⟨load, hload, .refl load⟩
  | tail hsteps hstep ih =>
    obtain ⟨_, hstep⟩ := hstep
    obtain ⟨load', hload', hcontinues⟩ := ih
    obtain ⟨load'', hload'', hcontinues'⟩ :=
      ((Steps.valid h hsteps).step hstep).2.loads l load' hload'
    exact ⟨load'', hload'', hcontinues.trans hcontinues'⟩

/-- A load that a link has ceased to wait for is never waited for again. -/
theorem Steps.not_loading (h : s.Valid) (hsteps : Steps s s') {l : LoadRef} {load : Load}
    (hload : s.world.load? l = some load)
    (hne : (s.world.entity load.owner).links.get? load.relation ≠ some (.loading l))
    : (s'.world.entity load.owner).links.get? load.relation ≠ some (.loading l) := by
  induction hsteps with
  | refl => exact hne
  | tail hsteps hstep ih =>
    obtain ⟨_, hstep⟩ := hstep
    have hvalid := Steps.valid h hsteps
    obtain ⟨load', hload', hcontinues⟩ := Steps.loads h hsteps hload
    have howner := (hvalid.coherent.loads l load' hload').owner_lt
    rw [hcontinues.owner] at howner
    exact (hvalid.step hstep).2.toFrame.not_loading howner (World.lt_of_load? hload') ih

/-- A relationship is set, or given another id, or read again by a reload of the entity. A reload does
not read relationships that were changed. -/
inductive Replaced (e : EntityRef) (name : String) : LinkSession → LinkSession → Prop where
  | set {w : World} {errands : List Errand} {target : Option EntityRef}
    (hopen : Open ⟨w, errands⟩ e) (htarget : ∀ t, target = some t → t < w.entities.size)
    (hdone : (w.setRelated e name target).1 = .ok ())
    : Replaced e name ⟨w, errands⟩ ⟨(w.setRelated e name target).2, errands⟩
  | setId {w : World} {errands : List Errand} {id : Option String} (hopen : Open ⟨w, errands⟩ e)
    (hid : (w.entity e).foreignIds.get? name ≠ some id)
    (hdone : (w.setRelatedId e name id).1 = .ok ())
    : Replaced e name ⟨w, errands⟩ ⟨(w.setRelatedId e name id).2, errands⟩
  | reload {w : World} {before after : List Errand} {errand : Errand} {deadline : Nat}
    (htask : errand.task = .calling (.reload e) deadline)
    (hunchanged : (w.entity e).dirtyRelations.contains name = false)
    (hdone : (w.poll errand.task).1 = .finished (.ok .done))
    : Replaced e name ⟨w, before ++ errand :: after⟩
        ⟨(w.poll errand.task).2, before ++ left w errand.made (w.poll errand.task) ++ after⟩
  | reloadAtOnce {w : World} {errands : List Errand} (hopen : Open ⟨w, errands⟩ e)
    (hunchanged : (w.entity e).dirtyRelations.contains name = false)
    (hdone : (w.start (.reload e)).1 = .finished (.ok .done))
    : Replaced e name ⟨w, errands⟩
        ⟨(w.start (.reload e)).2, errands ++ left w [] (w.start (.reload e))⟩

theorem Replaced.step (h : Replaced e name s s') : ∃ touched, Step touched s s' := by
  cases h with
  | set hopen htarget _ => exact ⟨_, .setRelated name hopen htarget⟩
  | setId hopen _ _ => exact ⟨_, .setRelatedId name _ hopen⟩
  | reload _ _ _ => exact ⟨_, .poll⟩
  | reloadAtOnce hopen _ _ =>
    refine ⟨_, @Step.start _ _ (.reload e) trivial ?_⟩
    rintro e' _ rfl
    exact hopen

theorem tryModify_done {f : Entity → Except StoreError Entity}
    (hdone : (w.tryModify e f).1 = .ok ())
    : ∃ x, f (w.entity e) = .ok x ∧ (w.tryModify e f).2 = w.modifyEntity e fun _ => x := by
  unfold World.tryModify at hdone ⊢
  split at hdone
  . next x hx => exact ⟨x, hx, rfl⟩
  . cases hdone

theorem arrive_reload_done (hdone : (w.arrive (.reload e)).1 = .finished (.ok .done))
    : ∃ r x, (w.entity e).rehydrate r = .ok x
        ∧
      (w.arrive (.reload e)).2 = w.modifyEntity e fun _ => x := by
  unfold World.arrive World.reloadWith at hdone ⊢
  dsimp only at hdone ⊢
  split at hdone
  . cases hdone
  . next r _ =>
    cases r with
    | none => cases hdone
    | some r =>
      dsimp only at hdone ⊢
      have hmodified : (w.tryModify e fun entity => entity.rehydrate r).1 = .ok () := by
        cases hresult : (w.tryModify e fun entity => entity.rehydrate r).1 with
        | ok _ => rfl
        | error err =>
          rw [hresult] at hdone
          cases hdone
      obtain ⟨x, hx, hworld⟩ := tryModify_done hmodified
      exact ⟨r, x, hx, hworld⟩

/-- A reload that has come to its end was read into the entity. -/
theorem poll_reload_done {deadline : Nat}
    (hdone : (w.poll (.calling (.reload e) deadline)).1 = .finished (.ok .done))
    : ∃ r x, (w.entity e).rehydrate r = .ok x
        ∧
      (w.poll (.calling (.reload e) deadline)).2.entities
        =
      (w.modifyEntity e fun _ => x).entities := by
  unfold World.poll at hdone ⊢
  dsimp only at hdone ⊢
  split at hdone
  . next hdue =>
    rw [if_pos hdue]
    obtain ⟨r, x, hx, hworld⟩ := arrive_reload_done hdone
    exact ⟨r, x, hx, by rw [hworld]⟩
  . cases hdone

theorem start_reload_done (hdone : (w.start (.reload e)).1 = .finished (.ok .done))
    : ∃ r x, (w.entity e).rehydrate r = .ok x
        ∧
      (w.start (.reload e)).2.entities = (w.modifyEntity e fun _ => x).entities := by
  unfold World.start World.call World.send at hdone ⊢
  dsimp only at hdone ⊢
  split at hdone
  . cases hdone
  . next hstored =>
    rw [if_neg hstored]
    split at hdone
    . next w' hsent =>
      injection hsent with _ hsent
      subst hsent
      obtain ⟨r, x, hx, hworld⟩ := arrive_reload_done hdone
      exact ⟨r, x, hx, by rw [hworld]; rfl⟩
    . cases hdone

theorem entity_of_modified {x : Entity} (he : e < w.entities.size)
    (hentities : w'.entities = (w.modifyEntity e fun _ => x).entities) : w'.entity e = x := by
  have hself := w.entity_modifyEntity e e (fun _ => x) he
  rw [if_pos rfl] at hself
  rw [← hself]
  unfold World.entity
  rw [hentities]

theorem not_loading_of_tryModify {f : Entity → Except StoreError Entity} {l : LoadRef}
    (he : e < w.entities.size) (hdone : (w.tryModify e f).1 = .ok ())
    (hf : ∀ x, f (w.entity e) = .ok x → x.links.get? name ≠ some (.loading l))
    : ((w.tryModify e f).2.entity e).links.get? name ≠ some (.loading l) := by
  obtain ⟨x, hx, hworld⟩ := tryModify_done hdone
  rw [entity_of_modified he (congrArg World.entities hworld)]
  exact hf x hx

theorem Replaced.not_loading (h : s.Valid) (hreplaced : Replaced e name s s') {l : LoadRef}
    (hl : l < s.world.loads.size) (he : e < s.world.entities.size)
    : (s'.world.entity e).links.get? name ≠ some (.loading l) := by
  by_cases hne : (s.world.entity e).links.get? name = some (.loading l)
  . obtain ⟨load, _, hserves⟩ := (h.coherent.links e he name).loading l hne
    obtain ⟨r, hr, _⟩ := hserves.foreignType
    have hreload : ∀ {x : Entity} {r : Record}, (s.world.entity e).rehydrate r = .ok x →
        (s.world.entity e).dirtyRelations.contains name = false → x.links.get? name = none := by
      intro x r' hx hunchanged
      have hrelation := (Entity.rehydrate_eq_ok hx).2 name
      rw [if_pos ⟨hunchanged, by rw [hr]; rfl⟩] at hrelation
      exact hrelation
    cases hreplaced with
    | set _ _ hdone =>
      apply not_loading_of_tryModify he hdone
      intro x hx
      obtain ⟨_, _, _, rfl⟩ := Entity.setRelated_eq_ok hx
      simp
    | setId _ hid hdone =>
      apply not_loading_of_tryModify he hdone
      intro x hx
      rcases Entity.setRelatedId_eq_ok hx with ⟨hsame, _⟩ | ⟨_, rfl⟩
      . exact absurd hsame hid
      . simp
    | reload htask hunchanged hdone =>
      rw [htask] at hdone
      obtain ⟨r', x, hx, hworld⟩ := poll_reload_done hdone
      rw [← htask] at hworld
      rw [entity_of_modified he hworld, hreload hx hunchanged]
      simp
    | reloadAtOnce _ hunchanged hdone =>
      obtain ⟨r', x, hx, hworld⟩ := start_reload_done hdone
      rw [entity_of_modified he hworld, hreload hx hunchanged]
      simp
  . obtain ⟨_, hstep⟩ := hreplaced.step
    exact (h.step hstep).2.toFrame.not_loading he hl hne

/-- A load that is of no more use to its relationship. When its call arrives, no entity is changed, and
all who have joined it get its result. -/
structure Abandoned (s : LinkSession) (l : LoadRef) : Prop where
  unseen : ∀ e < s.world.entities.size, (s.world.pollLoad l).entity e = s.world.entity e
  answers : ∀ errand ∈ s.errands, errand.task = .joining l →
    ∀ load, s.world.Due l load →
      (s.world.poll errand.task).1 = .finished ((s.world.fetchLoad load).1.map .entity)
        ∧
      (s.world.poll errand.task).2.loadResult? l = some (s.world.fetchLoad load).1
  repeats : ∀ errand ∈ s.errands, errand.task = .joining l →
    ∀ result, s.world.loadResult? l = some result →
      (s.world.poll errand.task).1 = .finished (result.map .entity)

theorem Steps.abandoned (h : s.Valid) {l : LoadRef} {load : Load}
    (hload : s.world.load? l = some load) (hreplaced : Replaced load.owner load.relation s s')
    (hsteps : Steps s' s'') : s''.Abandoned l := by
  have howner := (h.coherent.loads l load hload).owner_lt
  obtain ⟨_, hstep⟩ := hreplaced.step
  have hsteps' : Steps s s' := .single ⟨_, hstep⟩
  have hvalid := hsteps'.valid h
  have hne := hreplaced.not_loading h (World.lt_of_load? hload) howner
  obtain ⟨load', hload', hcontinues⟩ := hsteps'.loads h hload
  rw [← hcontinues.owner, ← hcontinues.relation] at hne
  obtain ⟨load'', hload'', hcontinues'⟩ := hsteps.loads hvalid hload'
  have hne' := hsteps.not_loading hvalid hload' hne
  rw [← hcontinues'.owner, ← hcontinues'.relation] at hne'
  constructor
  . intro e he
    exact World.entity_pollLoad_of_ne he
      ((hsteps.valid hvalid).coherent.loads l load'' hload'').owner_lt hload'' hne'
  . intro errand _ htask load hdue
    rw [htask, World.poll_joining, World.pollJoining_of_due hdue]
    exact ⟨rfl, World.loadResult?_pollLoad_of_due hdue⟩
  . intro errand _ htask result hresult
    rw [htask, World.poll_joining, World.pollJoining_of_result hresult]

theorem Steps.loadResult? (h : s.Valid) (hsteps : Steps s s') {l : LoadRef}
    {result : Except StoreError (Option EntityRef)} (hresult : s.world.loadResult? l = some result)
    : s'.world.loadResult? l = some result := by
  obtain ⟨load, hload, hsettled⟩ := World.loadResult?_eq_some.1 hresult
  obtain ⟨load', hload', hcontinues⟩ := hsteps.loads h hload
  exact World.loadResult?_eq_some.2 ⟨load', hload', hcontinues.settled hsettled⟩

/-- In every session a link leads only to the object that its foreign id and its type name. A load whose
relationship was replaced after it began comes to its end unseen, and answers all who joined it. -/
theorem coherent_of_steps (hfresh : s.Fresh) (hsteps : Steps s s')
    : (∀ e < s'.world.entities.size, ∀ name t,
        (s'.world.entity e).links.get? name = some (.resolved (some t)) →
          s'.world.Leads (s'.world.entity e) name t)
        ∧
      ∀ l load, s'.world.load? l = some load →
        ∀ replaced, Replaced load.owner load.relation s' replaced →
          ∀ later, Steps replaced later →
            later.Abandoned l
              ∧
            ∀ last, Steps later last → ∀ result, later.world.loadResult? l = some result →
              last.world.loadResult? l = some result := by
  have hvalid := hsteps.valid hfresh.valid
  refine ⟨fun e he name => (hvalid.coherent.links e he name).resolved, ?_⟩
  intro l load hload replaced hreplaced later hlater
  refine ⟨hlater.abandoned hvalid hload hreplaced, ?_⟩
  intro last hlast result
  obtain ⟨_, hstep⟩ := hreplaced.step
  exact hlast.loadResult? (hlater.valid (hvalid.step hstep).1)

theorem wellKept_of_forall_mem (h : ∀ a ∈ w.adapters, a.WellKept) (a : AdapterRef)
    : (w.adapter a).WellKept := by
  unfold World.adapter
  rw [Array.getD_eq_getD_getElem?]
  cases ha : w.adapters[a]? with
  | none => exact Adapter.Reached.empty.wellKept
  | some adapter => exact h adapter (Array.mem_of_getElem? ha)

def roomType : ObjectType := .ofName "room"

def phoneType : ObjectType := (ObjectType.ofName "phone").addBelongsTo "room" "room" "phones"

def phoneStore : Store := ⟨0, (Schema.addType .empty phoneType).addType roomType, {}⟩

def phoneAdapter : Adapter :=
  ((Adapter.empty.insert ((Record.ofId "phone" "p").withRelation "room" (some "hall"))).insert
    (Record.ofId "room" "hall")).insert (Record.ofId "room" "attic")

def phoneSession : LinkSession := ⟨{ World.empty with adapters := #[phoneAdapter] }, []⟩

/-- The phone is in memory, and from now on calls take time. -/
def slowSession : LinkSession :=
  ⟨{ (phoneSession.world.start (.get phoneStore "phone" "p")).2 with
      adapters := #[phoneAdapter.withLatency 10] }, []⟩

theorem wellNamed_phoneStore : phoneStore.schema.WellNamed :=
  (Schema.wellNamed_empty.addType phoneType).addType roomType

theorem reached_phoneAdapter : phoneAdapter.Reached :=
  ((Adapter.Reached.empty.insert _).insert _).insert _

theorem fresh_phoneSession : phoneSession.Fresh := by
  refine ⟨rfl, rfl, rfl, wellKept_of_forall_mem ?_⟩
  intro a ha
  rw [List.mem_singleton.1 (Array.mem_toList_iff.2 ha)]
  exact reached_phoneAdapter.wellKept

theorem steps_slowSession : Steps phoneSession slowSession := by
  let found := (phoneSession.world.start (.get phoneStore "phone" "p")).2
  have hget : Step _ phoneSession ⟨found, []⟩ :=
    @Step.start _ [] (.get phoneStore "phone" "p") wellNamed_phoneStore fun _ _ => nofun
  have hslow : Step World.nowhere ⟨found, []⟩ slowSession := by
    refine .outside rfl rfl (Nat.le_refl 1) (Nat.le_refl _) (wellKept_of_forall_mem ?_)
    intro a ha
    rw [List.mem_singleton.1 (Array.mem_toList_iff.2 ha)]
    exact (reached_phoneAdapter.withLatency 10).wellKept
  exact .tail (.single ⟨_, hget⟩) ⟨_, hslow⟩

theorem open_slowSession : slowSession.Open 0 :=
  ⟨by decide, fun _ => nofun⟩

/-- Time passes. -/
def wait (s : LinkSession) (time : Nat) : LinkSession :=
  ⟨{ s.world with clock := s.world.clock + time }, s.errands⟩

theorem Valid.step_wait (h : s.Valid) (time : Nat) : Step World.nowhere s (s.wait time) :=
  .outside rfl rfl (Nat.le_refl _) (Nat.le_add_right _ _) h.coherent.wellKept

/-- The application asks for the room of the phone, which it has to wait for. -/
def askRoom (s : LinkSession) : LinkSession :=
  ⟨(s.world.start (.related 0 "room")).2, s.errands ++ [⟨.joining 0, []⟩]⟩

/-- The phone is moved to the attic. -/
def moveUp (s : LinkSession) : LinkSession :=
  ⟨(s.world.setRelatedId 0 "room" (some "attic")).2, s.errands⟩

theorem step_askRoom : Step (Request.related 0 "room").Touches slowSession slowSession.askRoom :=
  @Step.start _ [] (.related 0 "room") trivial fun _ _ htouch => htouch.1 ▸ open_slowSession

theorem coherent_of_steps_of_moved_phone
    : phoneSession.Fresh
        ∧
      Steps phoneSession slowSession.askRoom
        ∧
      Replaced 0 "room" slowSession.askRoom slowSession.askRoom.moveUp
        ∧
      (slowSession.askRoom.moveUp.wait 10).Abandoned 0
        ∧
      ((slowSession.askRoom.moveUp.wait 10).world.poll (.joining 0)).1
        =
      .finished (.ok (.entity (some 1))) := by
  have hasked : Steps phoneSession slowSession.askRoom := .tail steps_slowSession ⟨_, step_askRoom⟩
  have hmoved : Replaced 0 "room" slowSession.askRoom slowSession.askRoom.moveUp := by
    refine .setId ⟨by decide, ?_⟩ (by decide) rfl
    intro errand herrand
    rw [List.mem_singleton.1 herrand]
    exact List.not_mem_nil
  obtain ⟨_, hstep⟩ := hmoved.step
  have hvalid := ((hasked.valid fresh_phoneSession.valid).step hstep).1
  obtain ⟨_, habandoned⟩ := coherent_of_steps fresh_phoneSession hasked
  exact ⟨fresh_phoneSession, hasked, hmoved,
    (habandoned 0 _ rfl _ hmoved _ (.single ⟨_, hvalid.step_wait 10⟩)).1, rfl⟩

/-- The phone is read again, and the answer is on its way. -/
def reloadPhone (s : LinkSession) : LinkSession :=
  ⟨(s.world.start (.reload 0)).2, s.errands ++ [⟨.calling (.reload 0) 10, []⟩]⟩

theorem step_moveUp : Step (fun e name => e = 0 ∧ name = "room") slowSession slowSession.moveUp :=
  @Step.setRelatedId _ [] 0 "room" (some "attic") open_slowSession

theorem step_moveUp_askRoom
    : Step (Request.related 0 "room").Touches slowSession.moveUp slowSession.moveUp.askRoom := by
  refine @Step.start _ [] (.related 0 "room") trivial ?_
  rintro e name ⟨rfl, rfl⟩
  exact ⟨by decide, fun _ => nofun⟩

theorem step_reloadPhone
    : Step (Request.reload 0).Touches slowSession.moveUp.askRoom
        slowSession.moveUp.askRoom.reloadPhone := by
  refine @Step.start _ [⟨.joining 0, []⟩] (.reload 0) trivial ?_
  rintro e name rfl
  refine ⟨by decide, ?_⟩
  intro errand herrand
  rw [List.mem_singleton.1 herrand]
  exact List.not_mem_nil

/-- A reload keeps relationships that were changed, and with them the loads that they wait for. -/
theorem altered_of_reload_of_changed
    : ∃ s s' : LinkSession, ∃ l load deadline,
        Steps phoneSession s
          ∧
        s.world.load? l = some load
          ∧
        ⟨.calling (.reload load.owner) deadline, []⟩ ∈ s.errands
          ∧
        (s.world.poll (.calling (.reload load.owner) deadline)).1 = .finished (.ok .done)
          ∧
        s'.world = (s.world.poll (.calling (.reload load.owner) deadline)).2
          ∧
        Steps s s'
          ∧
        (s'.world.entity load.owner).links.get? load.relation = some (.loading l)
          ∧
        ((s'.world.pollLoad l).entity load.owner).links.get? load.relation
          =
        some (.resolved (some 1)) := by
  let asked := slowSession.moveUp.askRoom
  have hreloading : Steps phoneSession asked.reloadPhone :=
    .tail (.tail (.tail steps_slowSession ⟨_, step_moveUp⟩) ⟨_, step_moveUp_askRoom⟩)
      ⟨_, step_reloadPhone⟩
  have hlate : Steps phoneSession (asked.reloadPhone.wait 10) :=
    .tail hreloading ⟨_, (hreloading.valid fresh_phoneSession.valid).step_wait 10⟩
  let reloading := (asked.reloadPhone.wait 10).world
  let reloaded := (reloading.poll (.calling (.reload 0) 10)).2
  have hreload : Step (Task.calling (.reload 0) 10 |>.Touches reloading)
      (asked.reloadPhone.wait 10) ⟨reloaded, [⟨.joining 0, []⟩]⟩ :=
    @Step.poll reloading [⟨.joining 0, []⟩] [] ⟨.calling (.reload 0) 10, []⟩
  refine ⟨asked.reloadPhone.wait 10, ⟨reloaded, [⟨.joining 0, []⟩]⟩, 0,
    ⟨0, "room", phoneStore, roomType, "attic", .underWay 10⟩, 10, hlate, ?_, ?_, ?_, rfl,
    .single ⟨_, hreload⟩, ?_, ?_⟩
  . rfl
  . exact .tail _ (.head _)
  . rfl
  . decide +kernel
  . decide +kernel

end LinkSession

end ObjectStore
