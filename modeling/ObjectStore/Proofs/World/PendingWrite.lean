import ObjectStore.Proofs.World.Frame
import ObjectStore.Proofs.World.Handle
import ObjectStore.World.Task

/-!
This module contains the writes that are under way. It proves what sending a batch, applying it and
taking its answer do to the entity and to the stored record of one object.
-/

namespace ObjectStore

/-- A batch that was sent, and the answer as soon as the adapter gave it. -/
structure PendingWrite where
  dispatch : Dispatch
  answer : Option (Except AdapterError (List Adapter.WriteResult))

namespace PendingWrite

def apply (w : World) (c : PendingWrite) : PendingWrite × World :=
  let (answer, adapter) := (w.adapter c.dispatch.adapter).applyBatch c.dispatch.ops
  (⟨c.dispatch, some answer⟩, w.modifyAdapter c.dispatch.adapter fun _ => adapter)

def complete (w : World) (c : PendingWrite) : World :=
  match c.answer with
  | some answer => (c.dispatch.settle w answer).2
  | none => w

theorem apply_of_online {w : World} {c : PendingWrite}
    (h : (w.adapter c.dispatch.adapter).offline = false)
    : c.apply w
        =
      (⟨c.dispatch,
          some (.ok
            (((w.adapter c.dispatch.adapter).applyOps c.dispatch.ops).2.handOutResults
              ((w.adapter c.dispatch.adapter).applyOps c.dispatch.ops).1))⟩,
        w.modifyAdapter c.dispatch.adapter fun _ =>
          ((w.adapter c.dispatch.adapter).applyOps c.dispatch.ops).2) := by
  unfold apply
  rw [Adapter.applyBatch_of_online h]

theorem arrive_write (w : World) (d : Dispatch) (single : Bool)
    : (w.arrive (.write d single)).2
        =
      ((⟨d, none⟩ : PendingWrite).apply w).1.complete ((⟨d, none⟩ : PendingWrite).apply w).2 := rfl

theorem arrive_write_of_online {w : World} {d : Dispatch} (h : (w.adapter d.adapter).offline = false)
    (single : Bool)
    : (w.arrive (.write d single)).2
        =
      (d.settle
        (w.modifyAdapter d.adapter fun _ => ((w.adapter d.adapter).applyOps d.ops).2)
        (.ok (((w.adapter d.adapter).applyOps d.ops).2.handOutResults
          ((w.adapter d.adapter).applyOps d.ops).1))).2 := by
  rw [arrive_write, apply_of_online h]
  rfl

end PendingWrite

/-- The write that a task has under way. -/
def Task.writes : Task → List PendingWrite
  | calling (.write d _) _ => [⟨d, none⟩]
  | _ => []

/-- A write was sent, or there was none: the task has ended, or has its write under way. -/
def Task.Sent (t : Task) : Prop :=
  t.isFinished = true ∨ t.writes ≠ []

theorem Task.writes_of_isFinished {t : Task} (h : t.isFinished = true) : t.writes = [] := by
  cases t with
  | finished => rfl
  | calling | joining | preloading => cases h

/-- What has become of the operation on an object. -/
inductive Standing where
  /-- There is none, or it failed. -/
  | idle
  | waiting (op : WriteOp)
  | accepted (op : WriteOp)

namespace Handle

def standing (x : Handle) (c : PendingWrite) : Standing :=
  match c.answer with
  | none =>
    match c.dispatch.planned.find? (·.entity == x.entity) with
    | some p => .waiting p.op
    | none => .idle
  | some (.error _) => .idle
  | some (.ok results) =>
    if results.length = c.dispatch.planned.length then
      match (c.dispatch.planned.zip results).find? (·.1.entity == x.entity) with
      | some (p, .ok ()) => .accepted p.op
      | _ => .idle
    else
      .idle

/-- The adapter would let an operation on the object fail. -/
def Refuses (x : Handle) (w : World) (op : WriteOp) : Prop :=
  (w.adapter x.adapter).offline = true ∨ (w.adapter x.adapter).Refuses op

variable {x : Handle} {w : World} {b : Batch} {c : PendingWrite} {op : WriteOp}

theorem standing_eq_idle_of_forall_ne (h : ∀ p ∈ c.dispatch.planned, p.entity ≠ x.entity)
    : x.standing c = .idle := by
  unfold standing
  split
  . rw [List.find?_eq_none.2 (by simpa using h)]
  . rfl
  . next results _ =>
    split
    . rw [List.find?_eq_none.2]
      intro r hr
      simpa using h r.1 (List.of_mem_zip hr).1
    . rfl

theorem find?_planned_of_answer_eq_none (h : c.answer = none)
    : (c.dispatch.planned.find? (·.entity == x.entity) = none ∧ x.standing c = .idle)
        ∨
      ∃ p, c.dispatch.planned.find? (·.entity == x.entity) = some p
        ∧
      x.standing c = .waiting p.op := by
  unfold standing
  rw [h]
  cases c.dispatch.planned.find? (·.entity == x.entity) with
  | none => exact .inl ⟨rfl, rfl⟩
  | some p => exact .inr ⟨p, rfl, rfl⟩

theorem Owns.split {d : Dispatch} {p : Planned} (h : x.Owns d)
    (hfind : d.planned.find? (·.entity == x.entity) = some p)
    : ∃ before after,
        d.planned = before ++ p :: after
          ∧
        p.entity = x.entity
          ∧
        (∀ q ∈ before, q.entity ≠ x.entity)
          ∧
        ∀ q ∈ after, q.entity ≠ x.entity := by
  obtain ⟨hp, before, after, hplanned, hbefore⟩ := List.find?_eq_some_iff_append.1 hfind
  have hp : p.entity = x.entity := by simpa using hp
  refine ⟨before, after, hplanned, hp, ?_, ?_⟩
  . intro q hq
    simpa using hbefore q hq
  . intro q hq heq
    have honce := h.once
    rw [hplanned, List.pairwise_append, List.pairwise_cons] at honce
    exact honce.2.1.1 q hq ⟨hp, heq⟩

theorem entityIn_apply : x.entityIn (c.apply w).2 = x.entityIn w := rfl

theorem adapter_apply (hx : x.Valid w)
    : (c.apply w).2.adapter x.adapter
        =
      if c.dispatch.adapter = x.adapter then
        ((w.adapter x.adapter).applyBatch c.dispatch.ops).2
      else
        w.adapter x.adapter := by
  unfold PendingWrite.apply
  dsimp only
  split
  . next heq => rw [heq, World.adapter_modifyAdapter_self _ hx.adapter_lt]
  . next hne => rw [World.adapter_modifyAdapter_of_ne _ (Ne.symm hne)]

theorem sameSettings_apply (hx : x.Valid w)
    : ((c.apply w).2.adapter x.adapter).SameSettings (w.adapter x.adapter) := by
  rw [adapter_apply hx]
  split
  . apply Adapter.sameSettings_applyBatch
  . exact ⟨rfl, rfl, rfl⟩

theorem Valid.apply (hx : x.Valid w) : x.Valid (c.apply w).2 := by
  constructor
  . exact hx.entity_lt
  . simpa [PendingWrite.apply] using hx.adapter_lt
  . exact hx.identity
  . exact hx.store
  . exact (sameSettings_apply hx).faults.trans hx.faults
  . rw [adapter_apply hx]
    split
    . exact hx.wellKept.applyBatch _
    . exact hx.wellKept

theorem answer_apply : (c.apply w).1
    =
  ⟨c.dispatch, some ((w.adapter c.dispatch.adapter).applyBatch c.dispatch.ops).1⟩ := rfl

-- The operations of the batch are on other objects, or for another adapter.
theorem apply_of_idle (hx : x.Valid w) (howns : x.Owns c.dispatch) (hanswer : c.answer = none)
    (hidle : x.standing c = .idle)
    : x.standing (c.apply w).1 = .idle ∧ x.stored (c.apply w).2 = x.stored w := by
  have hfind : c.dispatch.planned.find? (·.entity == x.entity) = none := by
    rcases find?_planned_of_answer_eq_none hanswer with h | ⟨p, _, h⟩
    . exact h.1
    . rw [hidle] at h
      cases h
  have hne : ∀ p ∈ c.dispatch.planned, p.entity ≠ x.entity := by
    simpa using List.find?_eq_none.1 hfind
  refine ⟨standing_eq_idle_of_forall_ne hne, ?_⟩
  unfold stored
  rw [adapter_apply hx]
  split
  . next hadapter =>
    cases hoffline : (w.adapter x.adapter).offline with
    | true => rw [Adapter.applyBatch_of_offline hoffline]
    | false =>
      rw [Adapter.applyBatch_of_online hoffline]
      apply Adapter.record?_applyOps_of_forall_ne hx.wellKept
      intro op hop
      obtain ⟨p, hp, rfl⟩ := List.mem_map.1 hop
      intro htarget
      exact hne p hp ((howns.target p hp).2 ⟨hadapter, htarget⟩)
  . rfl

theorem standing_of_split {d : Dispatch} {before after : List Planned} {p : Planned}
    {results results' : List Adapter.WriteResult} {result : Adapter.WriteResult}
    (hplanned : d.planned = before ++ p :: after) (hentity : p.entity = x.entity)
    (hbefore : ∀ q ∈ before, q.entity ≠ x.entity) (hlength : results.length = before.length)
    (htotal : (results ++ result :: results').length = d.planned.length)
    : x.standing ⟨d, some (.ok (results ++ result :: results'))⟩
        =
      match result with
      | .ok () => .accepted p.op
      | .error _ => .idle := by
  have hfind : (d.planned.zip (results ++ result :: results')).find? (·.1.entity == x.entity)
      = some (p, result) := by
    rw [hplanned, List.zip_append hlength.symm, List.zip_cons_cons, List.find?_eq_some_iff_append]
    refine ⟨by simpa using hentity, before.zip results, after.zip results', rfl, ?_⟩
    intro r hr
    simpa using hbefore r.1 (List.of_mem_zip hr).1
  unfold standing
  dsimp only
  rw [if_pos htotal, hfind]
  cases result <;> rfl

theorem exists_planned_of_waiting (hanswer : c.answer = none) (hwaiting : x.standing c = .waiting op)
    : ∃ p, c.dispatch.planned.find? (·.entity == x.entity) = some p ∧ p.op = op := by
  rcases find?_planned_of_answer_eq_none hanswer with h | ⟨p, hfind, h⟩
  . rw [hwaiting] at h
    cases h.2
  . rw [hwaiting] at h
    injection h with h
    exact ⟨p, hfind, h.symm⟩

theorem target_of_waiting (howns : x.Owns c.dispatch) (hanswer : c.answer = none)
    (hwaiting : x.standing c = .waiting op)
    : c.dispatch.adapter = x.adapter ∧ Adapter.target op = x.object := by
  obtain ⟨p, hfind, rfl⟩ := exists_planned_of_waiting hanswer hwaiting
  have hentity : p.entity = x.entity := by simpa using List.find?_some hfind
  exact (howns.target p (List.mem_of_find?_eq_some hfind)).1 hentity

/-- The operation on the object stands between operations on other objects. -/
theorem Owns.split_ops {p : Planned} (howns : x.Owns c.dispatch) (hanswer : c.answer = none)
    (hwaiting : x.standing c = .waiting p.op)
    (hfind : c.dispatch.planned.find? (·.entity == x.entity) = some p)
    : ∃ before after,
        c.dispatch.planned = before ++ p :: after
          ∧
        p.entity = x.entity
          ∧
        (∀ q ∈ before, q.entity ≠ x.entity)
          ∧
        (∀ op ∈ before.map Planned.op, Adapter.target op ≠ Adapter.target p.op)
          ∧
        ∀ op ∈ after.map Planned.op, Adapter.target op ≠ Adapter.target p.op := by
  obtain ⟨hadapter, htarget⟩ := target_of_waiting howns hanswer hwaiting
  obtain ⟨before, after, hplanned, hentity, hbefore, hafter⟩ := howns.split hfind
  have hother : ∀ q ∈ c.dispatch.planned, q.entity ≠ x.entity →
      Adapter.target q.op ≠ Adapter.target p.op := by
    intro q hq hne heq
    exact hne ((howns.target q hq).2 ⟨hadapter, heq.trans htarget⟩)
  rw [hplanned] at hother
  refine ⟨before, after, hplanned, hentity, hbefore, ?_, ?_⟩
  . intro op hop
    obtain ⟨q, hq, rfl⟩ := List.mem_map.1 hop
    exact hother q (by simp [hq]) (hbefore q hq)
  . intro op hop
    obtain ⟨q, hq, rfl⟩ := List.mem_map.1 hop
    exact hother q (by simp [hq]) (hafter q hq)

theorem apply_of_waiting_of_online (hx : x.Valid w) (howns : x.Owns c.dispatch)
    (hanswer : c.answer = none) (hwaiting : x.standing c = .waiting op)
    (hoffline : (w.adapter x.adapter).offline = false)
    : ((w.adapter x.adapter).Refuses op →
        x.standing (c.apply w).1 = .idle ∧ x.stored (c.apply w).2 = x.stored w)
        ∧
      (¬(w.adapter x.adapter).Refuses op →
        x.standing (c.apply w).1 = .accepted op
          ∧
        x.stored (c.apply w).2 = Adapter.overlay (x.stored w) op) := by
  obtain ⟨hadapter, htarget⟩ := target_of_waiting howns hanswer hwaiting
  obtain ⟨p, hfind, rfl⟩ := exists_planned_of_waiting hanswer hwaiting
  obtain ⟨before, after, hplanned, hentity, hbefore, hothers, hothers'⟩ :=
    howns.split_ops hanswer hwaiting hfind
  obtain ⟨results, result, results', hresults, hlength, hrefused, haccepted⟩ :=
    Adapter.applyOps_middle hx.wellKept hothers hothers'
  have hops : c.dispatch.ops = before.map Planned.op ++ p.op :: after.map Planned.op := by
    unfold Dispatch.ops
    rw [hplanned, List.map_append, List.map_cons]
  rw [← hops] at hresults hrefused haccepted
  have htotal : (results ++ result :: results').length = c.dispatch.planned.length := by
    rw [← hresults, Adapter.length_applyOps]
    simp [Dispatch.ops]
  have hstored : ∀ a : Adapter, a.record? x.object.typeName x.object.id
      = a.record? p.op.typeName p.op.id := by
    intro a
    rw [← htarget]
    rfl
  rw [answer_apply]
  unfold stored
  rw [adapter_apply hx, if_pos hadapter, hstored, hstored, hadapter,
    Adapter.applyBatch_of_online hoffline, Adapter.handOutResults_of_no_faults
      ((Adapter.sameSettings_applyOps _ _).faults.trans hx.faults)]
  dsimp only
  rw [hresults, standing_of_split hplanned hentity hbefore (by simpa using hlength) htotal]
  constructor
  . intro h
    obtain ⟨⟨e, rfl⟩, hrecord⟩ := hrefused h
    exact ⟨rfl, hrecord⟩
  . intro h
    obtain ⟨rfl, hrecord⟩ := haccepted h
    exact ⟨rfl, hrecord⟩

theorem apply_of_waiting (hx : x.Valid w) (howns : x.Owns c.dispatch) (hanswer : c.answer = none)
    (hwaiting : x.standing c = .waiting op)
    : (x.Refuses w op →
        x.standing (c.apply w).1 = .idle ∧ x.stored (c.apply w).2 = x.stored w)
        ∧
      (¬x.Refuses w op →
        x.standing (c.apply w).1 = .accepted op
          ∧
        x.stored (c.apply w).2 = Adapter.overlay (x.stored w) op) := by
  unfold Refuses
  cases hoffline : (w.adapter x.adapter).offline with
  | true =>
    have hadapter := (target_of_waiting howns hanswer hwaiting).1
    rw [answer_apply]
    unfold stored
    rw [adapter_apply hx, if_pos hadapter, hadapter, Adapter.applyBatch_of_offline hoffline]
    refine ⟨fun _ => ⟨rfl, rfl⟩, ?_⟩
    intro h
    exact absurd (.inl rfl) h
  | false =>
    simp only [Bool.false_eq_true, false_or]
    exact apply_of_waiting_of_online hx howns hanswer hwaiting hoffline

theorem complete_eq
    : c.complete w
        =
      match c.answer with
      | some (.ok results) =>
        if results.length = c.dispatch.planned.length then
          (Dispatch.settleEach (c.dispatch.destroyLocally w) (c.dispatch.planned.zip results)).2
        else
          w
      | _ => w := by
  unfold PendingWrite.complete
  split
  . next answer hanswer =>
    rw [hanswer]
    cases answer with
    | error e => rfl
    | ok results =>
      unfold Dispatch.settle
      by_cases hlength : results.length = c.dispatch.planned.length
      . simp only [ne_eq, hlength, not_true_eq_false, if_false, if_true]
        split <;> rfl
      . simp only [ne_eq, hlength, not_false_eq_true, if_true, if_false]
  . next hanswer => rw [hanswer]

theorem frame_complete : (c.complete w).adapters = w.adapters
    ∧
  (c.complete w).entities.size = w.entities.size := by
  rw [complete_eq]
  split
  . split
    . obtain ⟨hadapters, hsize⟩ := Dispatch.frame_destroyLocally w c.dispatch
      obtain ⟨hadapters', hsize'⟩ := Dispatch.frame_settleEach (c.dispatch.destroyLocally w)
        (c.dispatch.planned.zip _)
      exact ⟨hadapters'.trans hadapters, hsize'.trans hsize⟩
    . exact ⟨rfl, rfl⟩
  . exact ⟨rfl, rfl⟩

theorem stored_complete : x.stored (c.complete w) = x.stored w := by
  unfold stored World.adapter
  rw [frame_complete.1]

theorem Owns.split_zip {d : Dispatch} {results : List Adapter.WriteResult} {p : Planned}
    {result : Adapter.WriteResult} (h : x.Owns d) (hlength : results.length = d.planned.length)
    (hfind : (d.planned.zip results).find? (·.1.entity == x.entity) = some (p, result))
    : ∃ before after,
        d.planned.zip results = before ++ (p, result) :: after
          ∧
        p.entity = x.entity
          ∧
        (∀ r ∈ before, r.1.entity ≠ x.entity)
          ∧
        ∀ r ∈ after, r.1.entity ≠ x.entity := by
  obtain ⟨hp, before, after, hzip, hbefore⟩ := List.find?_eq_some_iff_append.1 hfind
  have hp : p.entity = x.entity := by simpa using hp
  refine ⟨before, after, hzip, hp, ?_, ?_⟩
  . intro r hr
    simpa using hbefore r hr
  . intro r hr heq
    have honce := h.once
    have hfst : (d.planned.zip results).map Prod.fst = d.planned := List.map_fst_zip (by omega)
    rw [← hfst, List.pairwise_map, hzip, List.pairwise_append, List.pairwise_cons] at honce
    exact honce.2.1.1 r hr ⟨hp, heq⟩

theorem complete_of_accepted (hx : x.Valid w) (howns : x.Owns c.dispatch)
    (haccepted : x.standing c = .accepted op)
    : x.entityIn (c.complete w) = Dispatch.noted (x.entityIn w) op := by
  unfold standing at haccepted
  rw [complete_eq]
  split at haccepted
  . split at haccepted <;> cases haccepted
  . cases haccepted
  . next results hanswer =>
    rw [hanswer]
    dsimp only
    split at haccepted
    . next hlength =>
      rw [if_pos hlength]
      split at haccepted
      . next p hfind =>
        injection haccepted with hop
        subst hop
        obtain ⟨before, after, hzip, hentity, hbefore, hafter⟩ := howns.split_zip hlength hfind
        have hplanned : p ∈ c.dispatch.planned := by
          have hmem : (p, Except.ok ()) ∈ c.dispatch.planned.zip results := by
            rw [hzip]
            simp
          exact (List.of_mem_zip hmem).1
        have hlocal : x.entity ∉ c.dispatch.localDestroys := by
          intro hmem
          exact howns.localDestroys hmem p hplanned hentity
        have hlt : p.entity < (c.dispatch.destroyLocally w).entities.size := by
          rw [(Dispatch.frame_destroyLocally w c.dispatch).2, hentity]
          exact hx.entity_lt
        unfold entityIn
        rw [hzip]
        rw [← hentity] at hbefore hafter hlocal ⊢
        rw [Dispatch.entity_settleEach_middle _ hlt hbefore hafter]
        dsimp only
        rw [Dispatch.entity_destroyLocally _ (by rw [hentity]; exact hx.entity_lt), if_neg hlocal]
      . cases haccepted
    . cases haccepted

theorem entityIn_destroyLocally (hx : x.Valid w) (d : Dispatch)
    : x.entityIn (d.destroyLocally w) = x.entityIn w
        ∨
      x.entity ∈ d.localDestroys
        ∧
      x.entityIn (d.destroyLocally w) = (x.entityIn w).markDestroyed := by
  unfold entityIn
  rw [Dispatch.entity_destroyLocally w hx.entity_lt]
  split
  . next hlocal => exact .inr ⟨hlocal, rfl⟩
  . exact .inl rfl

theorem complete_of_idle (hx : x.Valid w) (howns : x.Owns c.dispatch)
    (hanswer : c.answer ≠ none) (hidle : x.standing c = .idle)
    : x.entityIn (c.complete w) = x.entityIn w
        ∨
      x.entity ∈ c.dispatch.localDestroys
        ∧
      x.entityIn (c.complete w) = (x.entityIn w).markDestroyed := by
  unfold standing at hidle
  rw [complete_eq]
  split at hidle
  . next hnone => exact absurd hnone hanswer
  . next hanswer =>
    rw [hanswer]
    exact .inl rfl
  . next results hanswer =>
    rw [hanswer]
    dsimp only
    split at hidle
    . next hlength =>
      rw [if_pos hlength]
      have hsettled : x.entityIn
          (Dispatch.settleEach (c.dispatch.destroyLocally w) (c.dispatch.planned.zip results)).2
          = x.entityIn (c.dispatch.destroyLocally w) := by
        unfold entityIn
        cases hfind : (c.dispatch.planned.zip results).find? (·.1.entity == x.entity) with
        | none =>
          apply Dispatch.entity_settleEach_of_forall_ne
          intro r hr
          simpa using List.find?_eq_none.1 hfind r hr
        | some found =>
          obtain ⟨p, result⟩ := found
          cases result with
          | ok _ =>
            rw [hfind] at hidle
            cases hidle
          | error e =>
            obtain ⟨before, after, hzip, hentity, hbefore, hafter⟩ := howns.split_zip hlength hfind
            have hlt : p.entity < (c.dispatch.destroyLocally w).entities.size := by
              rw [(Dispatch.frame_destroyLocally w c.dispatch).2, hentity]
              exact hx.entity_lt
            rw [hzip]
            rw [← hentity] at hbefore hafter ⊢
            rw [Dispatch.entity_settleEach_middle _ hlt hbefore hafter]
      rw [hsettled]
      exact entityIn_destroyLocally hx c.dispatch
    . next hlength =>
      rw [if_neg hlength]
      exact .inl rfl

def SameObject (e e' : Entity) : Prop :=
  e'.identity = e.identity ∧ e'.store = e.store

theorem sameObject_noted (e : Entity) (op : WriteOp) : SameObject e (Dispatch.noted e op) := by
  cases op <;> exact ⟨rfl, rfl⟩

theorem Valid.of_sameObject {w' : World} (hx : x.Valid w) (hadapters : w'.adapters = w.adapters)
    (hsize : w'.entities.size = w.entities.size)
    (hsame : SameObject (x.entityIn w) (x.entityIn w')) : x.Valid w' := by
  have hadapter : w'.adapter x.adapter = w.adapter x.adapter := by
    unfold World.adapter
    rw [hadapters]
  constructor
  . rw [hsize]
    exact hx.entity_lt
  . rw [hadapters]
    exact hx.adapter_lt
  . exact hsame.1.trans hx.identity
  . rw [hsame.2]
    exact hx.store
  . rw [hadapter]
    exact hx.faults
  . rw [hadapter]
    exact hx.wellKept

theorem Valid.destroyLocally (hx : x.Valid w) (d : Dispatch) : x.Valid (d.destroyLocally w) := by
  obtain ⟨hadapters, hsize⟩ := Dispatch.frame_destroyLocally w d
  apply hx.of_sameObject hadapters hsize
  rcases entityIn_destroyLocally hx d with h | ⟨_, h⟩ <;> rw [h] <;> exact ⟨rfl, rfl⟩

theorem not_waiting_of_answer (hanswer : c.answer ≠ none)
    : x.standing c = .idle ∨ ∃ op, x.standing c = .accepted op := by
  unfold standing
  split
  . next hnone => exact absurd hnone hanswer
  . exact .inl rfl
  . split
    . split
      . exact .inr ⟨_, rfl⟩
      . exact .inl rfl
    . exact .inl rfl

theorem Valid.complete (hx : x.Valid w) (howns : x.Owns c.dispatch) (hanswer : c.answer ≠ none)
    : x.Valid (c.complete w) := by
  apply hx.of_sameObject frame_complete.1 frame_complete.2
  rcases not_waiting_of_answer (x := x) hanswer with hidle | ⟨op, haccepted⟩
  . rcases complete_of_idle hx howns hanswer hidle with h | ⟨_, h⟩ <;> rw [h] <;> exact ⟨rfl, rfl⟩
  . rw [complete_of_accepted hx howns haccepted]
    exact sameObject_noted _ op

end Handle

/-- Sends a batch, if there is something to send. -/
def Batch.begin (w : World) (b : Batch) : List PendingWrite × World :=
  match b.depart w with
  | (none, w) => ([], w)
  | (some d, w) => ([⟨d, none⟩], w.modifyAdapter d.adapter fun a => a.noteCall (.apply d.ops.length))

namespace Batch

variable {w : World} {b : Batch}

theorem begin_of_plan_eq_nil (h : b.plan w = [])
    : b.begin w = ([], (b.dispatch w).destroyLocally w) := by
  unfold Batch.begin
  rw [depart_of_plan_eq_nil h]

theorem begin_of_plan_ne_nil (h : b.plan w ≠ [])
    : b.begin w
        =
      ([⟨b.dispatch w, none⟩],
        w.modifyAdapter b.store.adapter fun a => a.noteCall (.apply (b.dispatch w).ops.length)) := by
  unfold Batch.begin
  rw [depart_of_plan_ne_nil h]
  rfl

end Batch

theorem World.call_cases (w : World) (job : Job)
    : (∃ deadline, w.call job
          = (.calling job deadline,
              w.modifyAdapter (job.adapter w) fun a => a.noteCall (job.call w)))
        ∨
      w.call job
        =
      (w.modifyAdapter (job.adapter w) fun a => a.noteCall (job.call w)).arrive job := by
  unfold World.call World.send
  dsimp only
  split
  . next h =>
    injection h with _ hworld
    subst hworld
    exact .inr rfl
  . next deadline _ h =>
    injection h with _ hworld
    subst hworld
    exact .inl ⟨deadline, rfl⟩

/-- Executing a batch is to send it and, unless the call takes time, to apply it and to take the
answer. -/
theorem World.execute_cases (w : World) (b : Batch) (single : Bool)
    : ((w.execute b single).1.writes = (b.begin w).1
          ∧
        (w.execute b single).2 = (b.begin w).2
          ∧
        (w.execute b single).1.Sent)
        ∨
      ∃ c, (b.begin w).1 = [c]
        ∧
      (w.execute b single).1.isFinished = true
        ∧
      (w.execute b single).2 = (c.apply (b.begin w).2).1.complete (c.apply (b.begin w).2).2 := by
  by_cases hplan : b.plan w = []
  . rw [Batch.begin_of_plan_eq_nil hplan, World.execute_of_plan_eq_nil hplan]
    exact .inl ⟨rfl, rfl, .inl rfl⟩
  . rw [Batch.begin_of_plan_ne_nil hplan, World.execute_of_plan_ne_nil hplan]
    rcases w.call_cases (.write (b.dispatch w) single) with ⟨deadline, hcall⟩ | hcall
    . rw [hcall]
      exact .inl ⟨rfl, rfl, .inr (List.cons_ne_nil _ _)⟩
    . rw [hcall]
      exact .inr ⟨_, rfl, rfl, rfl⟩

/-- The batch that a save of an entity sends. -/
def World.saveBatch (w : World) (e : EntityRef) : Batch :=
  (Batch.empty (w.entity e).store).saveWalk w [] [e]

theorem World.save_eq_saveBatch (w : World) (e : EntityRef)
    : (Batch.empty (w.entity e).store).save w e = .ok (w.saveBatch e) :=
  Batch.save_empty w e

theorem World.start_save (w : World) (e : EntityRef)
    : w.start (.save e) = w.execute (w.saveBatch e) true := by
  unfold World.start
  dsimp only
  rw [w.save_eq_saveBatch]

/-- The batch that saves an entity without any others. -/
def Batch.alone (w : World) (e : EntityRef) : Batch :=
  ⟨(w.entity e).store, [⟨(w.entity e).identity, e, false⟩]⟩

theorem World.start_save_of_knownRelated_eq_nil {w : World} {e : EntityRef}
    (he : e < w.entities.size) (hdestroyed : (w.entity e).destroyed = false)
    (hrelated : (w.entity e).knownRelated = [])
    : w.start (.save e) = w.execute (.alone w e) true := by
  unfold World.start
  dsimp only
  rw [Batch.save_of_knownRelated_eq_nil he hdestroyed hrelated]
  rfl

theorem World.start_destroy (w : World) (e : EntityRef)
    : w.start (.destroy e)
        =
      w.execute
        (if (w.entity e).destroyed then Batch.empty (w.entity e).store
          else (Batch.empty (w.entity e).store).enter (w.entity e).identity e true)
        true := by
  unfold World.start
  dsimp only
  rw [Batch.destroy_empty]

namespace Handle

variable {x : Handle} {w : World} {b : Batch} {c : PendingWrite} {op : WriteOp}

/-- An entity that has no related objects is saved without any others. -/
theorem writesAlone_save (he : x.entity < w.entities.size)
    (hdestroyed : (x.entityIn w).destroyed = false) (hrelated : (x.entityIn w).knownRelated = [])
    (hsave : (Batch.empty (w.entity x.entity).store).save w x.entity = .ok b)
    : x.WritesAlone w b := by
  rw [Batch.save_of_knownRelated_eq_nil he hdestroyed hrelated] at hsave
  injection hsave with hsave
  subst hsave
  intro _ slot hslot _
  rw [List.mem_singleton.1 hslot]

theorem writesAlone_destroy
    (hdestroy : (Batch.empty (w.entity x.entity).store).destroy w x.entity = .ok b)
    : x.WritesAlone w b := by
  rw [Batch.destroy_empty] at hdestroy
  injection hdestroy with hdestroy
  subst hdestroy
  intro _ slot hslot _
  split at hslot
  . cases hslot
  . rw [List.mem_singleton.1 hslot]

theorem stored_modifyAdapter (hx : x.Valid w) {a : AdapterRef} {f : Adapter → Adapter}
    (hsame : ∀ adapter : Adapter, ∀ typeName id,
      (f adapter).record? typeName id = adapter.record? typeName id)
    : x.stored (w.modifyAdapter a f) = x.stored w := by
  unfold stored
  by_cases h : x.adapter = a
  . rw [← h, World.adapter_modifyAdapter_self w hx.adapter_lt, hsame]
  . rw [World.adapter_modifyAdapter_of_ne w h]

theorem Valid.modifyAdapter (hx : x.Valid w) {a : AdapterRef} {f : Adapter → Adapter}
    (hrecords : ∀ adapter : Adapter, ∀ typeName id,
      (f adapter).record? typeName id = adapter.record? typeName id)
    (hfaults : ∀ adapter : Adapter, (f adapter).faults = adapter.faults)
    : x.Valid (w.modifyAdapter a f) := by
  by_cases h : x.adapter = a
  . subst h
    have hself := World.adapter_modifyAdapter_self w hx.adapter_lt f
    refine ⟨hx.entity_lt, by simpa using hx.adapter_lt, hx.identity, hx.store, ?_, ?_⟩
    . rw [hself, hfaults]
      exact hx.faults
    . rw [hself]
      intro typeName id r hr
      rw [hrecords] at hr
      exact hx.wellKept typeName id r hr
  . have hother := World.adapter_modifyAdapter_of_ne w h f
    refine ⟨hx.entity_lt, by simpa using hx.adapter_lt, hx.identity, hx.store, ?_, ?_⟩
    . rw [hother]
      exact hx.faults
    . rw [hother]
      exact hx.wellKept

theorem Valid.begin (hx : x.Valid w) (b : Batch) : x.Valid (b.begin w).2 := by
  by_cases hplan : b.plan w = []
  . rw [Batch.begin_of_plan_eq_nil hplan]
    exact hx.destroyLocally _
  . rw [Batch.begin_of_plan_ne_nil hplan]
    exact hx.modifyAdapter (fun _ _ _ => rfl) fun _ => rfl

theorem stored_begin (hx : x.Valid w) (b : Batch) : x.stored (b.begin w).2 = x.stored w := by
  by_cases hplan : b.plan w = []
  . rw [Batch.begin_of_plan_eq_nil hplan]
    unfold stored World.adapter
    rw [(Dispatch.frame_destroyLocally w _).1]
  . rw [Batch.begin_of_plan_ne_nil hplan]
    exact stored_modifyAdapter hx fun _ _ _ => rfl

theorem sameSettings_begin (hx : x.Valid w) (b : Batch)
    : ((b.begin w).2.adapter x.adapter).SameSettings (w.adapter x.adapter) := by
  by_cases hplan : b.plan w = []
  . rw [Batch.begin_of_plan_eq_nil hplan]
    unfold World.adapter
    rw [(Dispatch.frame_destroyLocally w _).1]
    exact ⟨rfl, rfl, rfl⟩
  . rw [Batch.begin_of_plan_ne_nil hplan]
    by_cases h : x.adapter = b.store.adapter
    . rw [← h, World.adapter_modifyAdapter_self w hx.adapter_lt]
      exact ⟨rfl, rfl, rfl⟩
    . rw [World.adapter_modifyAdapter_of_ne w h]
      exact ⟨rfl, rfl, rfl⟩

theorem entityIn_begin (hx : x.Valid w) (b : Batch)
    : x.entityIn (b.begin w).2 = x.entityIn w
        ∨
      x.entity ∈ b.localDestroys w
        ∧
      x.entityIn (b.begin w).2 = (x.entityIn w).markDestroyed := by
  by_cases hplan : b.plan w = []
  . rw [Batch.begin_of_plan_eq_nil hplan]
    exact entityIn_destroyLocally hx _
  . rw [Batch.begin_of_plan_ne_nil hplan]
    exact .inl rfl

theorem dispatch_of_mem_begin (h : c ∈ (b.begin w).1) : c = ⟨b.dispatch w, none⟩ := by
  by_cases hplan : b.plan w = []
  . rw [Batch.begin_of_plan_eq_nil hplan] at h
    cases h
  . rw [Batch.begin_of_plan_ne_nil hplan] at h
    exact List.mem_singleton.1 h

theorem standing_of_mem_begin (h : c ∈ (b.begin w).1)
    : x.standing c = .idle
        ∨
      ∃ op, x.standing c = .waiting op
        ∧
      (x.entityIn w).destroyed = false
        ∧
      ∃ slot ∈ b.slots, Batch.Due (x.entityIn w) slot.destroy op := by
  rw [dispatch_of_mem_begin h]
  rcases find?_planned_of_answer_eq_none (x := x) (c := ⟨b.dispatch w, none⟩) rfl with
    ⟨_, hidle⟩ | ⟨p, hfind, hwaiting⟩
  . exact .inl hidle
  . have hentity : p.entity = x.entity := by simpa using List.find?_some hfind
    obtain ⟨slot, hslot, hplan⟩ := Batch.mem_plan (List.mem_of_find?_eq_some hfind)
    obtain ⟨heq, hdestroyed, hdue⟩ := Batch.planSlot_eq_some hplan
    rw [← heq, hentity] at hdestroyed hdue
    exact .inr ⟨p.op, hwaiting, hdestroyed, slot, hslot, hdue⟩

theorem localDestroys_of_savesOnly (h : b.SavesOnly) : b.localDestroys w = [] := by
  unfold Batch.localDestroys
  rw [List.map_eq_nil_iff, List.filter_eq_nil_iff]
  intro slot hslot
  simp [h slot hslot]

theorem entityIn_begin_of_savesOnly (hx : x.Valid w) (h : b.SavesOnly)
    : x.entityIn (b.begin w).2 = x.entityIn w := by
  rcases entityIn_begin hx b with hsame | ⟨hlocal, _⟩
  . exact hsame
  . rw [localDestroys_of_savesOnly h] at hlocal
    cases hlocal

end Handle

theorem mem_of_mem_rest {α : Type} {a b : α} {before after : List α} (h : a ∈ before ++ after)
    : a ∈ before ++ b :: after := by
  rcases List.mem_append.1 h with h | h <;> simp [h]

namespace PendingWrite

/-- The writes that wait have no answer yet, and the others have one. What they sent has a certain
property. -/
structure Underway (P : Dispatch → Prop) (waiting answered : List PendingWrite) : Prop where
  noAnswer : ∀ c ∈ waiting, c.answer = none
  hasAnswer : ∀ c ∈ answered, c.answer ≠ none
  sent : ∀ c ∈ answered ++ waiting, P c.dispatch

namespace Underway

variable {P : Dispatch → Prop} {waiting answered before after : List PendingWrite} {w : World}
  {c : PendingWrite}

theorem nil : Underway P [] [] := ⟨by simp, by simp, by simp⟩

theorem sent_waiting (h : Underway P waiting answered) (hc : c ∈ waiting) : P c.dispatch :=
  h.sent c (List.mem_append_right answered hc)

theorem sent_answered (h : Underway P waiting answered) (hc : c ∈ answered) : P c.dispatch :=
  h.sent c (List.mem_append_left waiting hc)

theorem begin (h : Underway P waiting answered) {b : Batch} (hsent : P (b.dispatch w))
    : Underway P (waiting ++ (b.begin w).1) answered := by
  constructor
  . intro c hc
    rcases List.mem_append.1 hc with hc | hc
    . exact h.noAnswer c hc
    . rw [Handle.dispatch_of_mem_begin hc]
  . exact h.hasAnswer
  . intro c hc
    rw [← List.append_assoc] at hc
    rcases List.mem_append.1 hc with hc | hc
    . exact h.sent c hc
    . rw [Handle.dispatch_of_mem_begin hc]
      exact hsent

theorem apply (h : Underway P (before ++ c :: after) answered)
    : Underway P (before ++ after) (answered ++ [(c.apply w).1]) := by
  constructor
  . intro d hd
    exact h.noAnswer d (mem_of_mem_rest hd)
  . intro d hd
    rcases List.mem_append.1 hd with hd | hd
    . exact h.hasAnswer d hd
    . rw [List.mem_singleton.1 hd]
      exact Option.some_ne_none _
  . intro d hd
    rcases List.mem_append.1 hd with hd | hd
    . rcases List.mem_append.1 hd with hd | hd
      . exact h.sent_answered hd
      . rw [List.mem_singleton.1 hd]
        exact h.sent_waiting (c := c) (by simp)
    . exact h.sent_waiting (mem_of_mem_rest hd)

theorem complete (h : Underway P waiting (before ++ c :: after))
    : Underway P waiting (before ++ after) := by
  constructor
  . exact h.noAnswer
  . intro d hd
    exact h.hasAnswer d (mem_of_mem_rest hd)
  . intro d hd
    rcases List.mem_append.1 hd with hd | hd
    . exact h.sent_answered (mem_of_mem_rest hd)
    . exact h.sent_waiting hd

end Underway

end PendingWrite

end ObjectStore
