import Mathlib.Logic.Relation
import ObjectStore.Proofs.World.PendingWrite

/-!
This module follows an entity through saves, destroys and reloads that overlap, with an adapter that
applies and answers calls in any order. It proves from which states on a destroyed entity stays
destroyed, with no record left behind: nothing checks the entity again when an answer is taken, so all
that is under way when it is destroyed has to be harmless.
-/

namespace ObjectStore

/-- A world and the calls that are under way: the writes and reloads that wait for the adapter, and
those that wait for their sender to take the answer. -/
structure LifeSession where
  world : World
  waiting : List PendingWrite
  answered : List PendingWrite
  asking : List EntityRef
  found : List (EntityRef × Except AdapterError (Option Record))

def World.ask (w : World) (e : EntityRef) : Except AdapterError (Option Record) :=
  (w.adapter (w.entity e).store.adapter).get (w.entity e).typeName (w.entity e).id

def World.takeFound (w : World) (e : EntityRef) (answer : Except AdapterError (Option Record))
    : World :=
  match answer with
  | .ok r => (w.reloadWith e r).2
  | .error _ => w

theorem World.arrive_reload (w : World) (e : EntityRef)
    : (w.arrive (.reload e)).2 = w.takeFound e (w.ask e) := by
  unfold World.arrive World.takeFound World.ask
  dsimp only
  cases (w.adapter (w.entity e).store.adapter).get (w.entity e).typeName (w.entity e).id <;> rfl

theorem World.isFinished_arrive_reload (w : World) (e : EntityRef)
    : (w.arrive (.reload e)).1.isFinished = true := by
  unfold World.arrive
  dsimp only
  split <;> rfl

/-- The entity that a task is about to reload. -/
def Task.reloads : Task → List EntityRef
  | calling (.reload e) _ => [e]
  | _ => []

theorem Task.reloads_of_isFinished {t : Task} (h : t.isFinished = true) : t.reloads = [] := by
  cases t with
  | finished => rfl
  | calling | joining | preloading => cases h

/-- What goes on outside of the lifecycle of an entity. The entity may be edited, and the adapter may
go offline or refuse changes. -/
structure LeavesAlone (x : Handle) (w w' : World) : Prop where
  valid : x.Valid w'
  objectType : (x.entityIn w').objectType = (x.entityIn w).objectType
  persisted : (x.entityIn w').persisted = (x.entityIn w).persisted
  destroyed : (x.entityIn w').destroyed = (x.entityIn w).destroyed
  stored : x.stored w' = x.stored w

inductive LifeStep (x : Handle) : LifeSession → LifeSession → Prop where
  | execute {w : World} {waiting answered : List PendingWrite} {asking : List EntityRef}
    {found : List (EntityRef × Except AdapterError (Option Record))} {b : Batch}
    (hproper : b.Proper w) (halone : x.WritesAlone w b)
    : LifeStep x ⟨w, waiting, answered, asking, found⟩
        ⟨(b.begin w).2, waiting ++ (b.begin w).1, answered, asking, found⟩
  | reload {w : World} {waiting answered : List PendingWrite} {asking : List EntityRef}
    {found : List (EntityRef × Except AdapterError (Option Record))} {e : EntityRef}
    (hdestroyed : (w.entity e).destroyed = false)
    : LifeStep x ⟨w, waiting, answered, asking, found⟩
        ⟨w.modifyAdapter (w.entity e).store.adapter fun a =>
            a.noteCall (.get (w.entity e).typeName (w.entity e).id),
          waiting, answered, asking ++ [e], found⟩
  | apply {w : World} {before after answered : List PendingWrite} {c : PendingWrite}
    {asking : List EntityRef} {found : List (EntityRef × Except AdapterError (Option Record))}
    : LifeStep x ⟨w, before ++ c :: after, answered, asking, found⟩
        ⟨(c.apply w).2, before ++ after, answered ++ [(c.apply w).1], asking, found⟩
  | complete {w : World} {waiting before after : List PendingWrite} {c : PendingWrite}
    {asking : List EntityRef} {found : List (EntityRef × Except AdapterError (Option Record))}
    : LifeStep x ⟨w, waiting, before ++ c :: after, asking, found⟩
        ⟨c.complete w, waiting, before ++ after, asking, found⟩
  | find {w : World} {waiting answered : List PendingWrite} {before after : List EntityRef}
    {e : EntityRef} {found : List (EntityRef × Except AdapterError (Option Record))}
    : LifeStep x ⟨w, waiting, answered, before ++ e :: after, found⟩
        ⟨w, waiting, answered, before ++ after, found ++ [(e, w.ask e)]⟩
  | take {w : World} {waiting answered : List PendingWrite} {asking : List EntityRef}
    {before after : List (EntityRef × Except AdapterError (Option Record))} {e : EntityRef}
    {answer : Except AdapterError (Option Record)}
    : LifeStep x ⟨w, waiting, answered, asking, before ++ (e, answer) :: after⟩
        ⟨w.takeFound e answer, waiting, answered, asking, before ++ after⟩
  | elsewhere {w w' : World} {waiting answered : List PendingWrite} {asking : List EntityRef}
    {found : List (EntityRef × Except AdapterError (Option Record))} (h : LeavesAlone x w w')
    : LifeStep x ⟨w, waiting, answered, asking, found⟩ ⟨w', waiting, answered, asking, found⟩

namespace LifeSession

def Idle (s : LifeSession) : Prop :=
  s.waiting = [] ∧ s.answered = [] ∧ s.asking = [] ∧ s.found = []

/-- A destroyed entity does not count as stored, and no record of it is left when all calls are
done. -/
def Consistent (x : Handle) (s : LifeSession) : Prop :=
  (x.entityIn s.world).destroyed = true →
    (x.entityIn s.world).persisted = false ∧ (s.Idle → x.stored s.world = none)

/-- Nothing is under way that could bring the entity or its record back. -/
structure Gone (x : Handle) (s : LifeSession) : Prop where
  unsaved : (x.entityIn s.world).persisted = false
  unstored : x.stored s.world = none
  noPut : ∀ c ∈ s.waiting, ∀ op, x.standing c = .waiting op → Adapter.isPut op = false
  noSave : ∀ c ∈ s.answered, ∀ op, x.standing c = .accepted op → op.isDelete = true
  noFind : ∀ record, (x.entity, .ok (some record)) ∈ s.found →
    ∀ values, Entity.decode (x.entityIn s.world).objectType record ≠ .ok values

/-- What every run keeps. -/
structure Kept (x : Handle) (s : LifeSession) : Prop where
  valid : x.Valid s.world
  underway : PendingWrite.Underway x.Owns s.waiting s.answered

variable {x : Handle} {w w' : World}

theorem rehydrate_spec {e e' : Entity} {r : Record} (h : e.rehydrate r = .ok e')
    : (e'.identity = e.identity ∧ e'.store = e.store ∧ e'.objectType = e.objectType)
        ∧
      e'.destroyed = e.destroyed
        ∧
      e'.persisted = true
        ∧
      ∃ values, Entity.decode e.objectType r = .ok values := by
  unfold Entity.rehydrate at h
  split at h
  . cases h
  . next attributes foreignIds hdecode =>
    injection h with h
    subst h
    exact ⟨⟨rfl, rfl, rfl⟩, rfl, rfl, _, hdecode⟩

theorem exists_rehydrate {e : Entity} {r : Record} {values : Keyed Value × Keyed (Option String)}
    (h : Entity.decode e.objectType r = .ok values) : ∃ e', e.rehydrate r = .ok e' := by
  unfold Entity.rehydrate
  rw [h]
  exact ⟨_, rfl⟩

theorem frame_takeFound (w : World) (e : EntityRef) (answer : Except AdapterError (Option Record))
    : (w.takeFound e answer).adapters = w.adapters
        ∧
      (w.takeFound e answer).entities.size = w.entities.size := by
  unfold World.takeFound World.reloadWith World.tryModify
  split
  . dsimp only
    split
    . exact ⟨rfl, rfl⟩
    . split
      . exact ⟨rfl, World.size_modifyEntity w e _⟩
      . exact ⟨rfl, rfl⟩
  . exact ⟨rfl, rfl⟩

theorem entityIn_takeFound (hx : x.Valid w) (e : EntityRef)
    (answer : Except AdapterError (Option Record))
    : x.entityIn (w.takeFound e answer) = x.entityIn w
        ∨
      e = x.entity
        ∧
      ∃ record, answer = .ok (some record)
        ∧
      (x.entityIn w).rehydrate record = .ok (x.entityIn (w.takeFound e answer)) := by
  unfold World.takeFound World.reloadWith World.tryModify
  split
  . next r =>
    dsimp only
    split
    . exact .inl rfl
    . next record =>
      split
      . next entity hentity =>
        by_cases he : x.entity = e
        . subst he
          refine .inr ⟨rfl, record, rfl, ?_⟩
          unfold Handle.entityIn
          rw [World.entity_modifyEntity _ _ _ _ hx.entity_lt, if_pos rfl]
          exact hentity
        . exact .inl (w.entity_modifyEntity_of_ne he _)
      . exact .inl rfl
  . exact .inl rfl

theorem entityIn_takeFound_of_rehydrate (hx : x.Valid w) {record : Record} {e : Entity}
    (h : (x.entityIn w).rehydrate record = .ok e)
    : x.entityIn (w.takeFound x.entity (.ok (some record))) = e := by
  unfold World.takeFound World.reloadWith World.tryModify
  unfold Handle.entityIn at h ⊢
  dsimp only
  rw [h]
  dsimp only
  rw [World.entity_modifyEntity _ _ _ _ hx.entity_lt, if_pos rfl]

theorem valid_takeFound (hx : x.Valid w) (e : EntityRef)
    (answer : Except AdapterError (Option Record)) : x.Valid (w.takeFound e answer) := by
  obtain ⟨hadapters, hsize⟩ := frame_takeFound w e answer
  apply hx.of_sameObject hadapters hsize
  rcases entityIn_takeFound hx e answer with hsame | ⟨_, record, _, hrehydrate⟩
  . rw [hsame]
    exact ⟨rfl, rfl⟩
  . obtain ⟨⟨hidentity, hstore, _⟩, _⟩ := rehydrate_spec hrehydrate
    exact ⟨hidentity, hstore⟩

theorem stored_takeFound (e : EntityRef) (answer : Except AdapterError (Option Record))
    : x.stored (w.takeFound e answer) = x.stored w := by
  unfold Handle.stored World.adapter
  rw [(frame_takeFound w e answer).1]

variable {s s' : LifeSession}

theorem Kept.step (h : Kept x s) (hstep : LifeStep x s s') : Kept x s' := by
  obtain ⟨hvalid, hunderway⟩ := h
  cases hstep with
  | @execute w _ _ _ _ b hproper halone =>
    exact ⟨hvalid.begin b, hunderway.begin (hvalid.owns_dispatch hproper halone)⟩
  | reload _ => exact ⟨hvalid.modifyAdapter (fun _ _ _ => rfl) fun _ => rfl, hunderway⟩
  | apply => exact ⟨hvalid.apply, hunderway.apply⟩
  | @complete w _ _ _ c =>
    have howns : x.Owns c.dispatch := hunderway.sent_answered (by simp)
    exact ⟨hvalid.complete howns (hunderway.hasAnswer c (by simp)), hunderway.complete⟩
  | find => exact ⟨hvalid, hunderway⟩
  | take => exact ⟨valid_takeFound hvalid _ _, hunderway⟩
  | elsewhere helse => exact ⟨helse.valid, hunderway⟩

theorem destroyed_noted (e : Entity) (op : WriteOp) (h : e.destroyed = true)
    : (Dispatch.noted e op).destroyed = true := by
  cases op with
  | put _ | patch _ => exact h
  | delete _ _ => rfl

-- Nothing makes a destroyed entity another one that is not destroyed.
theorem destroyed_step (h : Kept x s) (hstep : LifeStep x s s')
    (hdestroyed : (x.entityIn s.world).destroyed = true)
    : (x.entityIn s'.world).destroyed = true := by
  have hvalid := h.valid
  cases hstep with
  | execute _ _ =>
    dsimp only at *
    rcases Handle.entityIn_begin hvalid _ with heq | ⟨_, heq⟩ <;> rw [heq]
    . exact hdestroyed
    . rfl
  | reload _ | apply | find => exact hdestroyed
  | @complete w _ _ _ c =>
    have hanswer := h.underway.hasAnswer c (by simp)
    have howns := h.underway.sent_answered (c := c) (by simp)
    dsimp only at *
    rcases Handle.not_waiting_of_answer (x := x) hanswer with hidle | ⟨op, haccepted⟩
    . rcases Handle.complete_of_idle hvalid howns hanswer hidle with heq | ⟨_, heq⟩ <;> rw [heq]
      . exact hdestroyed
      . rfl
    . rw [Handle.complete_of_accepted hvalid howns haccepted]
      exact destroyed_noted _ op hdestroyed
  | @take w _ _ _ _ _ e answer =>
    dsimp only at *
    rcases entityIn_takeFound hvalid e answer with heq | ⟨_, record, _, hrehydrate⟩
    . rw [heq]
      exact hdestroyed
    . rw [(rehydrate_spec hrehydrate).2.1]
      exact hdestroyed
  | elsewhere helse => exact helse.destroyed.trans hdestroyed

/-- An entity is looked up where its record is stored. -/
theorem record?_entity (hx : x.Valid w)
    : (w.adapter (w.entity x.entity).store.adapter).record? (w.entity x.entity).typeName
        (w.entity x.entity).id = x.stored w := by
  have hstore : (w.entity x.entity).store.adapter = x.adapter := hx.store
  have hidentity : (w.entity x.entity).identity = x.object := hx.identity
  unfold Handle.stored
  rw [hstore, ← hidentity]
  rfl

theorem ask_of_stored_eq_none (hx : x.Valid w) (hnone : x.stored w = none) (record : Record)
    : w.ask x.entity ≠ .ok (some record) := by
  unfold World.ask Adapter.get Adapter.checkOnline
  rw [record?_entity hx, hnone]
  intro h
  obtain ⟨_, _, h⟩ := bind_eq_ok.1 h
  cases h

theorem refuses_of_stored_eq_none {c : PendingWrite} {op : WriteOp} (howns : x.Owns c.dispatch)
    (hanswer : c.answer = none) (hwaiting : x.standing c = .waiting op)
    (hput : Adapter.isPut op = false) (hnone : x.stored w = none) : x.Refuses w op := by
  have htarget := (Handle.target_of_waiting howns hanswer hwaiting).2
  unfold Handle.stored at hnone
  rw [← htarget] at hnone
  exact .inr (.inr ⟨hput, hnone⟩)

variable {waiting answered before after : List PendingWrite} {asking : List EntityRef}
  {found : List (EntityRef × Except AdapterError (Option Record))}

theorem Gone.begin {b : Batch} (h : Gone x ⟨w, waiting, answered, asking, found⟩)
    (hvalid : x.Valid w) (hdestroyed : (x.entityIn w).destroyed = true)
    : Gone x ⟨(b.begin w).2, waiting ++ (b.begin w).1, answered, asking, found⟩ := by
  have hentity : (x.entityIn (b.begin w).2).persisted = false
      ∧ (x.entityIn (b.begin w).2).objectType = (x.entityIn w).objectType := by
    rcases Handle.entityIn_begin hvalid b with heq | ⟨_, heq⟩ <;> rw [heq]
    . exact ⟨h.unsaved, rfl⟩
    . exact ⟨rfl, rfl⟩
  refine ⟨hentity.1, (Handle.stored_begin hvalid b).trans h.unstored, ?_, h.noSave, ?_⟩
  . intro c hc op hwaiting
    rcases List.mem_append.1 hc with hc | hc
    . exact h.noPut c hc op hwaiting
    -- Nothing is planned for an entity that is destroyed.
    . rcases Handle.standing_of_mem_begin (x := x) hc with hidle | ⟨_, _, halive, _⟩
      . rw [hidle] at hwaiting
        cases hwaiting
      . rw [hdestroyed] at halive
        cases halive
  . dsimp only
    rw [hentity.2]
    exact h.noFind

theorem Gone.apply {c : PendingWrite}
    (h : Gone x ⟨w, before ++ c :: after, answered, asking, found⟩) (hvalid : x.Valid w)
    (howns : x.Owns c.dispatch) (hanswer : c.answer = none)
    : Gone x ⟨(c.apply w).2, before ++ after, answered ++ [(c.apply w).1], asking, found⟩ := by
  have happlied : x.standing (c.apply w).1 = .idle ∧ x.stored (c.apply w).2 = x.stored w := by
    rcases Handle.find?_planned_of_answer_eq_none (x := x) hanswer with ⟨_, hidle⟩ | ⟨p, _, hwaiting⟩
    . exact Handle.apply_of_idle hvalid howns hanswer hidle
    . have hput := h.noPut c (by simp) p.op hwaiting
      apply (Handle.apply_of_waiting hvalid howns hanswer hwaiting).1
      exact refuses_of_stored_eq_none howns hanswer hwaiting hput h.unstored
  refine ⟨h.unsaved, happlied.2.trans h.unstored, ?_, ?_, h.noFind⟩
  . intro d hd
    exact h.noPut d (mem_of_mem_rest hd)
  . intro d hd op haccepted
    rcases List.mem_append.1 hd with hd | hd
    . exact h.noSave d hd op haccepted
    . rw [List.mem_singleton.1 hd, happlied.1] at haccepted
      cases haccepted

theorem Gone.complete {c : PendingWrite}
    (h : Gone x ⟨w, waiting, before ++ c :: after, asking, found⟩) (hvalid : x.Valid w)
    (howns : x.Owns c.dispatch) (hanswer : c.answer ≠ none)
    : Gone x ⟨c.complete w, waiting, before ++ after, asking, found⟩ := by
  have hentity : (x.entityIn (c.complete w)).persisted = false
      ∧ (x.entityIn (c.complete w)).objectType = (x.entityIn w).objectType := by
    rcases Handle.not_waiting_of_answer (x := x) hanswer with hidle | ⟨op, haccepted⟩
    . rcases Handle.complete_of_idle hvalid howns hanswer hidle with heq | ⟨_, heq⟩ <;> rw [heq]
      . exact ⟨h.unsaved, rfl⟩
      . exact ⟨rfl, rfl⟩
    . have hdelete := h.noSave c (by simp) op haccepted
      rw [Handle.complete_of_accepted hvalid howns haccepted]
      cases op with
      | put _ | patch _ => cases hdelete
      | delete _ _ => exact ⟨rfl, rfl⟩
  refine ⟨hentity.1, Handle.stored_complete.trans h.unstored, h.noPut, ?_, ?_⟩
  . intro d hd
    exact h.noSave d (mem_of_mem_rest hd)
  . dsimp only
    rw [hentity.2]
    exact h.noFind

theorem Gone.find {before after : List EntityRef} {e : EntityRef}
    (h : Gone x ⟨w, waiting, answered, before ++ e :: after, found⟩) (hvalid : x.Valid w)
    : Gone x ⟨w, waiting, answered, before ++ after, found ++ [(e, w.ask e)]⟩ := by
  refine ⟨h.unsaved, h.unstored, h.noPut, h.noSave, ?_⟩
  intro record hrecord
  rcases List.mem_append.1 hrecord with hrecord | hrecord
  . exact h.noFind record hrecord
  . injection List.mem_singleton.1 hrecord with hentity hanswer
    rw [← hentity] at hanswer
    exact absurd hanswer.symm (ask_of_stored_eq_none hvalid h.unstored record)

theorem Gone.take {before after : List (EntityRef × Except AdapterError (Option Record))}
    {e : EntityRef} {answer : Except AdapterError (Option Record)}
    (h : Gone x ⟨w, waiting, answered, asking, before ++ (e, answer) :: after⟩) (hvalid : x.Valid w)
    : Gone x ⟨w.takeFound e answer, waiting, answered, asking, before ++ after⟩ := by
  have hentity : x.entityIn (w.takeFound e answer) = x.entityIn w := by
    rcases entityIn_takeFound hvalid e answer with heq | ⟨hentity, record, hanswer, hrehydrate⟩
    . exact heq
    . obtain ⟨values, hdecode⟩ := (rehydrate_spec hrehydrate).2.2.2
      refine absurd hdecode (h.noFind record ?_ values)
      rw [hentity, hanswer]
      simp
  refine ⟨?_, (stored_takeFound e answer).trans h.unstored, h.noPut, h.noSave, ?_⟩
  . dsimp only
    rw [hentity]
    exact h.unsaved
  . intro record hrecord
    dsimp only
    rw [hentity]
    exact h.noFind record (mem_of_mem_rest hrecord)

theorem Gone.step (hkept : Kept x s) (hdestroyed : (x.entityIn s.world).destroyed = true)
    (h : Gone x s) (hstep : LifeStep x s s') : Gone x s' := by
  have hvalid := hkept.valid
  cases hstep with
  | execute _ _ => exact h.begin hvalid hdestroyed
  | reload _ =>
    refine ⟨h.unsaved, ?_, h.noPut, h.noSave, h.noFind⟩
    dsimp only
    rw [Handle.stored_modifyAdapter hvalid]
    . exact h.unstored
    . intro _ _ _
      rfl
  | apply =>
    exact h.apply hvalid (hkept.underway.sent_waiting (by simp))
      (hkept.underway.noAnswer _ (by simp))
  | complete =>
    exact h.complete hvalid (hkept.underway.sent_answered (by simp))
      (hkept.underway.hasAnswer _ (by simp))
  | find => exact h.find hvalid
  | take => exact h.take hvalid
  | elsewhere helse =>
    refine ⟨helse.persisted.trans h.unsaved, helse.stored.trans h.unstored, h.noPut, h.noSave, ?_⟩
    dsimp only
    rw [helse.objectType]
    exact h.noFind

abbrev Steps (x : Handle) : LifeSession → LifeSession → Prop :=
  Relation.ReflTransGen (LifeStep x)

/-- An operation that was started takes steps of a session. -/
def Sends (x : Handle) (s : LifeSession) (started : Task × World) : Prop :=
  Steps x s { s with world := started.2, waiting := s.waiting ++ started.1.writes }
    ∧
  started.1.Sent

theorem sends_execute {b : Batch} (single : Bool) (hproper : b.Proper w) (halone : x.WritesAlone w b)
    : Sends x ⟨w, waiting, answered, asking, found⟩ (w.execute b single) := by
  have hsent := @LifeStep.execute x w waiting answered asking found b hproper halone
  unfold Sends
  dsimp only
  rcases w.execute_cases b single with ⟨hwrites, hworld, hdone⟩ | ⟨c, hc, hends, hworld⟩
  . rw [hwrites, hworld]
    exact ⟨.single hsent, hdone⟩
  . rw [hc] at hsent
    have happly := @LifeStep.apply x (b.begin w).2 waiting [] answered c asking found
    have hcomplete := @LifeStep.complete x (c.apply (b.begin w).2).2 (waiting ++ []) answered []
      (c.apply (b.begin w).2).1 asking found
    rw [List.append_nil answered] at hcomplete
    rw [Task.writes_of_isFinished hends, hworld]
    exact ⟨.head hsent (.head happly (.single hcomplete)), .inl hends⟩

theorem sends_save {e : EntityRef}
    (halone : ∀ b, (Batch.empty (w.entity e).store).save w e = .ok b → x.WritesAlone w b)
    : Sends x ⟨w, waiting, answered, asking, found⟩ (w.start (.save e)) := by
  have hsave := w.save_eq_saveBatch e
  rw [w.start_save]
  exact sends_execute true ((Batch.proper_empty w _).save hsave) (halone _ hsave)

theorem sends_destroy {e : EntityRef}
    (halone : ∀ b, (Batch.empty (w.entity e).store).destroy w e = .ok b → x.WritesAlone w b)
    : Sends x ⟨w, waiting, answered, asking, found⟩ (w.start (.destroy e)) := by
  have hdestroy := Batch.destroy_empty w e
  rw [w.start_destroy]
  exact sends_execute true ((Batch.proper_empty w _).destroy hdestroy) (halone _ hdestroy)

theorem steps_of_arrive_write (d : Dispatch) (single : Bool)
    : Steps x ⟨w, before ++ ⟨d, none⟩ :: after, answered, asking, found⟩
        ⟨(w.arrive (.write d single)).2, before ++ after, answered, asking, found⟩ := by
  have happly := @LifeStep.apply x w before after answered ⟨d, none⟩ asking found
  have hcomplete := @LifeStep.complete x ((⟨d, none⟩ : PendingWrite).apply w).2 (before ++ after)
    answered [] ((⟨d, none⟩ : PendingWrite).apply w).1 asking found
  rw [List.append_nil answered] at hcomplete
  rw [PendingWrite.arrive_write]
  exact .head happly (.single hcomplete)

theorem steps_of_arrive_reload {before after : List EntityRef} (e : EntityRef)
    : Steps x ⟨w, waiting, answered, before ++ e :: after, found⟩
        ⟨(w.arrive (.reload e)).2, waiting, answered, before ++ after, found⟩ := by
  have hfind := @LifeStep.find x w waiting answered before after e found
  have htake := @LifeStep.take x w waiting answered (before ++ after) found [] e (w.ask e)
  rw [List.append_nil found] at htake
  rw [World.arrive_reload]
  exact .head hfind (.single htake)

/-- A reload that was started takes steps of a session, and waits if it has not ended. -/
theorem steps_of_reload (e : EntityRef)
    : Steps x ⟨w, waiting, answered, asking, found⟩
          ⟨(w.start (.reload e)).2, waiting, answered, asking ++ (w.start (.reload e)).1.reloads, found⟩
        ∧
      ((w.start (.reload e)).1.isFinished = true ∨ (w.start (.reload e)).1.reloads = [e]) := by
  cases hdestroyed : (w.entity e).destroyed with
  | true =>
    unfold World.start
    dsimp only
    rw [if_pos hdestroyed]
    refine ⟨?_, .inl rfl⟩
    dsimp only [Task.reloads]
    rw [List.append_nil]
  | false =>
    have hstart : w.start (.reload e) = w.call (.reload e) := by
      unfold World.start
      dsimp only
      rw [if_neg (by simp [hdestroyed])]
    have hreload : LifeStep x ⟨w, waiting, answered, asking, found⟩
        ⟨w.modifyAdapter (Job.adapter w (.reload e)) fun a => a.noteCall (Job.call w (.reload e)),
          waiting, answered, asking ++ [e], found⟩ := .reload hdestroyed
    rw [hstart]
    rcases w.call_cases (.reload e) with ⟨deadline, hcall⟩ | hcall
    . rw [hcall]
      exact ⟨.single hreload, .inr rfl⟩
    . generalize (w.modifyAdapter (Job.adapter w (.reload e)) fun a =>
        a.noteCall (Job.call w (.reload e))) = w₁ at hcall hreload
      have hends := World.isFinished_arrive_reload w₁ e
      have harrive := @steps_of_arrive_reload x w₁ waiting answered found asking [] e
      rw [hcall, Task.reloads_of_isFinished hends]
      exact ⟨.head hreload harrive, .inl hends⟩

theorem Kept.steps (h : Kept x s) (hsteps : Steps x s s') : Kept x s' := by
  induction hsteps with
  | refl => exact h
  | tail _ hstep ih => exact ih.step hstep

theorem Gone.steps (hkept : Kept x s) (hdestroyed : (x.entityIn s.world).destroyed = true)
    (h : Gone x s) (hsteps : Steps x s s')
    : Gone x s' ∧ (x.entityIn s'.world).destroyed = true := by
  induction hsteps with
  | refl => exact ⟨h, hdestroyed⟩
  | tail hsteps hstep ih =>
    have hkept' := hkept.steps hsteps
    exact ⟨ih.1.step hkept' ih.2 hstep, destroyed_step hkept' hstep ih.2⟩

/-- A destroyed entity with a record, which nothing removes while the adapter is offline. -/
structure Stranded (x : Handle) (s : LifeSession) : Prop where
  kept : Kept x s
  destroyed : (x.entityIn s.world).destroyed = true
  stored : x.stored s.world ≠ none
  offline : (s.world.adapter x.adapter).offline = true

theorem Stranded.step (h : Stranded x s) (hstep : LifeStep x s s')
    (hstored : x.stored s'.world = x.stored s.world)
    (hoffline : (s'.world.adapter x.adapter).offline = (s.world.adapter x.adapter).offline)
    : Stranded x s' := by
  refine ⟨h.kept.step hstep, destroyed_step h.kept hstep h.destroyed, ?_, ?_⟩
  . rw [hstored]
    exact h.stored
  . rw [hoffline]
    exact h.offline

theorem Stranded.apply {c : PendingWrite}
    (h : Stranded x ⟨w, c :: waiting, answered, asking, found⟩)
    : Stranded x ⟨(c.apply w).2, waiting, answered ++ [(c.apply w).1], asking, found⟩ := by
  have hvalid : x.Valid w := h.kept.valid
  have howns := h.kept.underway.sent_waiting (c := c) List.mem_cons_self
  have hanswer := h.kept.underway.noAnswer c List.mem_cons_self
  apply h.step (@LifeStep.apply x w [] waiting answered c asking found)
  . rcases Handle.find?_planned_of_answer_eq_none (x := x) hanswer with
      ⟨_, hidle⟩ | ⟨p, _, hwaiting⟩
    . exact (Handle.apply_of_idle hvalid howns hanswer hidle).2
    . exact ((Handle.apply_of_waiting hvalid howns hanswer hwaiting).1 (.inl h.offline)).2
  . exact (Handle.sameSettings_apply hvalid).offline

theorem Stranded.complete {c : PendingWrite}
    (h : Stranded x ⟨w, waiting, c :: answered, asking, found⟩)
    : Stranded x ⟨c.complete w, waiting, answered, asking, found⟩ := by
  apply h.step (@LifeStep.complete x w waiting [] answered c asking found) Handle.stored_complete
  unfold World.adapter
  rw [Handle.frame_complete.1]

theorem Stranded.take {e : EntityRef} {answer : Except AdapterError (Option Record)}
    (h : Stranded x ⟨w, waiting, answered, asking, (e, answer) :: found⟩)
    : Stranded x ⟨w.takeFound e answer, waiting, answered, asking, found⟩ := by
  apply h.step (@LifeStep.take x w waiting answered asking [] found e answer)
    (stored_takeFound e answer)
  unfold World.adapter
  rw [(frame_takeFound w e answer).1]

theorem Stranded.exists_waiting_eq_nil (h : Stranded x ⟨w, waiting, answered, asking, found⟩)
    : ∃ w' answered',
        Steps x ⟨w, waiting, answered, asking, found⟩ ⟨w', [], answered', asking, found⟩
          ∧
        Stranded x ⟨w', [], answered', asking, found⟩ := by
  induction waiting generalizing w answered with
  | nil => exact ⟨w, answered, .refl, h⟩
  | cons c waiting ih =>
    obtain ⟨w', answered', hsteps, hstranded⟩ := ih h.apply
    exact ⟨w', answered', .head (@LifeStep.apply x w [] waiting answered c asking found) hsteps,
      hstranded⟩

theorem Stranded.exists_answered_eq_nil (h : Stranded x ⟨w, waiting, answered, asking, found⟩)
    : ∃ w',
        Steps x ⟨w, waiting, answered, asking, found⟩ ⟨w', waiting, [], asking, found⟩
          ∧
        Stranded x ⟨w', waiting, [], asking, found⟩ := by
  induction answered generalizing w with
  | nil => exact ⟨w, .refl, h⟩
  | cons c answered ih =>
    obtain ⟨w', hsteps, hstranded⟩ := ih h.complete
    exact ⟨w', .head (@LifeStep.complete x w waiting [] answered c asking found) hsteps, hstranded⟩

theorem Stranded.exists_asking_eq_nil (h : Stranded x ⟨w, waiting, answered, asking, found⟩)
    : ∃ found',
        Steps x ⟨w, waiting, answered, asking, found⟩ ⟨w, waiting, answered, [], found'⟩
          ∧
        Stranded x ⟨w, waiting, answered, [], found'⟩ := by
  induction asking generalizing found with
  | nil => exact ⟨found, .refl, h⟩
  | cons e asking ih =>
    have hstep := @LifeStep.find x w waiting answered [] asking e found
    obtain ⟨found', hsteps, hstranded⟩ := ih (h.step hstep rfl rfl)
    exact ⟨found', .head hstep hsteps, hstranded⟩

theorem Stranded.exists_found_eq_nil (h : Stranded x ⟨w, waiting, answered, asking, found⟩)
    : ∃ w',
        Steps x ⟨w, waiting, answered, asking, found⟩ ⟨w', waiting, answered, asking, []⟩
          ∧
        Stranded x ⟨w', waiting, answered, asking, []⟩ := by
  induction found generalizing w with
  | nil => exact ⟨w, .refl, h⟩
  | cons r found ih =>
    obtain ⟨w', hsteps, hstranded⟩ := ih h.take
    exact ⟨w', .head (@LifeStep.take x w waiting answered asking [] found r.1 r.2) hsteps,
      hstranded⟩

theorem Stranded.exists_idle (h : Stranded x s)
    : ∃ s', Steps x s s' ∧ s'.Idle ∧ Stranded x s' := by
  obtain ⟨w, waiting, answered, asking, found⟩ := s
  obtain ⟨w', answered', hwaiting, h⟩ := h.exists_waiting_eq_nil
  obtain ⟨w', hanswered, h⟩ := h.exists_answered_eq_nil
  obtain ⟨found', hasking, h⟩ := h.exists_asking_eq_nil
  obtain ⟨w', hfound, h⟩ := h.exists_found_eq_nil
  exact ⟨_, hwaiting.trans (hanswered.trans (hasking.trans hfound)), ⟨rfl, rfl, rfl, rfl⟩, h⟩

theorem exists_inconsistent_of_stored (hkept : Kept x s)
    (hdestroyed : (x.entityIn s.world).destroyed = true) (hstored : x.stored s.world ≠ none)
    : ∃ s', Steps x s s' ∧ ¬Consistent x s' := by
  obtain ⟨w, waiting, answered, asking, found⟩ := s
  have hvalid : x.Valid w := hkept.valid
  have hsame : x.stored (w.modifyAdapter x.adapter fun a => a.setOffline true) = x.stored w :=
    Handle.stored_modifyAdapter hvalid (by intro _ _ _; rfl)
  have hstep : LifeStep x ⟨w, waiting, answered, asking, found⟩
      ⟨w.modifyAdapter x.adapter fun a => a.setOffline true, waiting, answered, asking, found⟩ :=
    .elsewhere
      ⟨hvalid.modifyAdapter (by intro _ _ _; rfl) (by intro _; rfl), rfl, rfl, rfl, hsame⟩
  have hstranded : Stranded x
      ⟨w.modifyAdapter x.adapter fun a => a.setOffline true, waiting, answered, asking, found⟩ := by
    refine ⟨hkept.step hstep, hdestroyed, ?_, ?_⟩
    . dsimp only
      rw [hsame]
      exact hstored
    . dsimp only
      rw [World.adapter_modifyAdapter_self w hvalid.adapter_lt]
      rfl
  obtain ⟨s', hsteps, hidle, hstranded⟩ := hstranded.exists_idle
  refine ⟨s', .head hstep hsteps, ?_⟩
  intro hconsistent
  exact hstranded.stored ((hconsistent hstranded.destroyed).2 hidle)

theorem not_consistent_of_persisted (hdestroyed : (x.entityIn s.world).destroyed = true)
    (hpersisted : (x.entityIn s.world).persisted = true) : ¬Consistent x s := by
  intro hconsistent
  rw [(hconsistent hdestroyed).1] at hpersisted
  cases hpersisted

theorem gone_of_idle (hidle : s.Idle) (hunsaved : (x.entityIn s.world).persisted = false)
    (hunstored : x.stored s.world = none) : Gone x s := by
  obtain ⟨hwaiting, hanswered, _, hfound⟩ := hidle
  refine ⟨hunsaved, hunstored, ?_, ?_, ?_⟩
  . simp [hwaiting]
  . simp [hanswered]
  . simp [hfound]

-- The adapter may come online and accept the object before it applies the operation.
theorem exists_inconsistent_of_put (hkept : Kept x s)
    (hdestroyed : (x.entityIn s.world).destroyed = true) {c : PendingWrite} {op : WriteOp}
    (hc : c ∈ s.waiting) (hwaiting : x.standing c = .waiting op) (hput : Adapter.isPut op = true)
    : ∃ s', Steps x s s' ∧ ¬Consistent x s' := by
  obtain ⟨w, waiting, answered, asking, found⟩ := s
  obtain ⟨before, after, rfl⟩ := List.append_of_mem hc
  have hvalid : x.Valid w := hkept.valid
  have howns := hkept.underway.sent_waiting hc
  have hanswer := hkept.underway.noAnswer c hc
  have hsame : x.stored (w.modifyAdapter x.adapter fun a => (a.accept x.object).setOffline false)
      = x.stored w :=
    Handle.stored_modifyAdapter hvalid (by intro _ _ _; rfl)
  have hvalid' : x.Valid
      (w.modifyAdapter x.adapter fun a => (a.accept x.object).setOffline false) :=
    hvalid.modifyAdapter (by intro _ _ _; rfl) (by intro _; rfl)
  have haccept : LifeStep x ⟨w, before ++ c :: after, answered, asking, found⟩
      ⟨w.modifyAdapter x.adapter fun a => (a.accept x.object).setOffline false,
        before ++ c :: after, answered, asking, found⟩ :=
    .elsewhere ⟨hvalid', rfl, rfl, rfl, hsame⟩
  have happly := @LifeStep.apply x
    (w.modifyAdapter x.adapter fun a => (a.accept x.object).setOffline false) before after answered c
    asking found
  have htarget := (Handle.target_of_waiting howns hanswer hwaiting).2
  have hrefuses : ¬x.Refuses
      (w.modifyAdapter x.adapter fun a => (a.accept x.object).setOffline false) op := by
    unfold Handle.Refuses Adapter.Refuses
    rw [World.adapter_modifyAdapter_self w hvalid.adapter_lt, htarget, hput]
    rintro (hoffline | hrejected | ⟨hput, _⟩)
    . cases hoffline
    . simp [Adapter.accept, Adapter.setOffline] at hrejected
    . cases hput
  have hstored := ((Handle.apply_of_waiting hvalid' howns hanswer hwaiting).2 hrefuses).2
  obtain ⟨s', hsteps, hinconsistent⟩ := exists_inconsistent_of_stored
    ((hkept.step haccept).step happly)
    (destroyed_step (hkept.step haccept) happly (destroyed_step hkept haccept hdestroyed)) (by
      dsimp only
      rw [hstored]
      cases op with
      | put record => exact Option.some_ne_none record
      | patch _ | delete _ _ => cases hput)
  exact ⟨s', .head haccept (.head happly hsteps), hinconsistent⟩

theorem exists_inconsistent_of_save (hkept : Kept x s)
    (hdestroyed : (x.entityIn s.world).destroyed = true) {c : PendingWrite} {op : WriteOp}
    (hc : c ∈ s.answered) (haccepted : x.standing c = .accepted op) (hdelete : op.isDelete = false)
    : ∃ s', Steps x s s' ∧ ¬Consistent x s' := by
  obtain ⟨w, waiting, answered, asking, found⟩ := s
  obtain ⟨before, after, rfl⟩ := List.append_of_mem hc
  have hstep := @LifeStep.complete x w waiting before after c asking found
  refine ⟨_, .single hstep, ?_⟩
  apply not_consistent_of_persisted (destroyed_step hkept hstep hdestroyed)
  dsimp only
  rw [Handle.complete_of_accepted hkept.valid (hkept.underway.sent_answered hc) haccepted]
  cases op with
  | put _ | patch _ => rfl
  | delete _ _ => cases hdelete

theorem exists_inconsistent_of_find (hkept : Kept x s)
    (hdestroyed : (x.entityIn s.world).destroyed = true) {record : Record}
    {values : Keyed Value × Keyed (Option String)}
    (hfound : (x.entity, .ok (some record)) ∈ s.found)
    (hdecode : Entity.decode (x.entityIn s.world).objectType record = .ok values)
    : ∃ s', Steps x s s' ∧ ¬Consistent x s' := by
  obtain ⟨w, waiting, answered, asking, found⟩ := s
  obtain ⟨before, after, rfl⟩ := List.append_of_mem hfound
  have hstep := @LifeStep.take x w waiting answered asking before after x.entity
    (.ok (some record))
  refine ⟨_, .single hstep, ?_⟩
  apply not_consistent_of_persisted (destroyed_step hkept hstep hdestroyed)
  obtain ⟨e, he⟩ := exists_rehydrate hdecode
  have hvalid : x.Valid w := hkept.valid
  have hentity := entityIn_takeFound_of_rehydrate hvalid he
  dsimp only
  rw [hentity]
  exact (rehydrate_spec he).2.2.1

/-- A destroyed entity stays destroyed and leaves no record exactly when nothing is under way that
could bring it back. -/
theorem consistent_iff_gone (hvalid : x.Valid w) (hsteps : Steps x ⟨w, [], [], [], []⟩ s)
    : ((x.entityIn s.world).destroyed = false → Consistent x s)
        ∧
      ((x.entityIn s.world).destroyed = true →
        ((∀ s', Steps x s s' → Consistent x s') ↔ Gone x s)) := by
  have hstart : Kept x ⟨w, [], [], [], []⟩ := ⟨hvalid, .nil⟩
  have hkept := hstart.steps hsteps
  constructor
  . intro hdestroyed hdestroyed'
    rw [hdestroyed] at hdestroyed'
    cases hdestroyed'
  . intro hdestroyed
    constructor
    . intro hconsistent
      have hnone : ¬∃ s', Steps x s s' ∧ ¬Consistent x s' := by
        rintro ⟨s', hsteps', hinconsistent⟩
        exact hinconsistent (hconsistent s' hsteps')
      refine ⟨(hconsistent s .refl hdestroyed).1, ?_, ?_, ?_, ?_⟩
      . by_contra hstored
        exact hnone (exists_inconsistent_of_stored hkept hdestroyed hstored)
      . intro c hc op hwaiting
        by_contra hput
        rw [Bool.not_eq_false] at hput
        exact hnone (exists_inconsistent_of_put hkept hdestroyed hc hwaiting hput)
      . intro c hc op haccepted
        by_contra hdelete
        rw [Bool.not_eq_true] at hdelete
        exact hnone (exists_inconsistent_of_save hkept hdestroyed hc haccepted hdelete)
      . intro record hfound values hdecode
        exact hnone (exists_inconsistent_of_find hkept hdestroyed hfound hdecode)
    . intro hgone s' hsteps' _
      have hgone' := (hgone.steps hkept hdestroyed hsteps').1
      exact ⟨hgone'.unsaved, fun _ => hgone'.unstored⟩

def lampStore : Store := ⟨0, .empty, {}⟩

def lampHandle : Handle := ⟨0, 0, ⟨"lamp", "l"⟩⟩

/-- A lamp that is known, and stored as far as it counts as persisted. Calls take some time. -/
def lampWorld (persisted : Bool) : World :=
  { World.empty with
    adapters := #[
      if persisted then (Adapter.empty.withLatency 10).insert (Record.ofId "lamp" "l")
      else Adapter.empty.withLatency 10]
    entities := #[Entity.bare lampStore (.ofName "lamp") "l" persisted] }

theorem valid_lampWorld (persisted : Bool) : lampHandle.Valid (lampWorld persisted) := by
  have hreached := Adapter.Reached.empty.withLatency 10
  cases persisted with
  | false => exact ⟨by decide, by decide, rfl, rfl, rfl, hreached.wellKept⟩
  | true => exact ⟨by decide, by decide, rfl, rfl, rfl, (hreached.insert _).wellKept⟩

-- The lamp was stored, is read once more, and is destroyed while nothing else is under way.
theorem consistent_of_stored_lamp
    : ∃ s,
        lampHandle.Valid (lampWorld true)
          ∧
        Steps lampHandle ⟨lampWorld true, [], [], [], []⟩ s
          ∧
        (lampHandle.entityIn s.world).destroyed = true
          ∧
        Gone lampHandle s
          ∧
        ∀ s', Steps lampHandle s s' → Consistent lampHandle s' := by
  have hasked := (@steps_of_reload lampHandle (lampWorld true) [] [] [] [] 0).1
  have hread := hasked.trans (@steps_of_arrive_reload lampHandle _ [] [] [] [] [] 0)
  have hsent := hread.trans (sends_destroy fun b => @Handle.writesAlone_destroy lampHandle _ b).1
  have hsteps := hsent.trans (@steps_of_arrive_write lampHandle _ [] [] [] [] [] _ true)
  rw [PendingWrite.arrive_write_of_online rfl] at hsteps
  have hvalid := valid_lampWorld true
  have hconsistent := (consistent_iff_gone hvalid hsteps).2 rfl
  refine ⟨_, hvalid, hsteps, rfl, ?gone, hconsistent.2 ?gone⟩
  exact gone_of_idle ⟨rfl, rfl, rfl, rfl⟩ rfl rfl

-- The lamp is new, and is destroyed while a save of it is under way.
theorem inconsistent_of_overtaken_destroy
    : ∃ s,
        lampHandle.Valid (lampWorld false)
          ∧
        Steps lampHandle ⟨lampWorld false, [], [], [], []⟩ s
          ∧
        s.Idle
          ∧
        (lampHandle.entityIn s.world).destroyed = true
          ∧
        (lampHandle.entityIn s.world).persisted = true
          ∧
        (lampHandle.stored s.world).isSome = true
          ∧
        ¬Consistent lampHandle s := by
  have hsaved := (@sends_save lampHandle (lampWorld false) [] [] [] [] 0
    fun b => @Handle.writesAlone_save lampHandle _ b (by decide) rfl rfl).1
  rw [World.start_save_of_knownRelated_eq_nil (by decide) rfl rfl] at hsaved
  have hdestroyed := hsaved.trans (sends_destroy fun b => @Handle.writesAlone_destroy lampHandle _ b).1
  have hsteps := hdestroyed.trans (@steps_of_arrive_write lampHandle _ [] [] [] [] [] _ true)
  rw [PendingWrite.arrive_write_of_online rfl] at hsteps
  exact ⟨_, valid_lampWorld false, hsteps, ⟨rfl, rfl, rfl, rfl⟩, rfl, rfl, rfl,
    not_consistent_of_persisted rfl rfl⟩

end LifeSession

end ObjectStore
