import ObjectStore.Adapter.Read
import ObjectStore.Proofs.Keyed

/-!
This module proves what writing does to the contents of an adapter: an operation changes the record of
its own object only, and every record is stored under its own type and id.
-/

namespace ObjectStore.Adapter

theorem record?_insert (a : Adapter) (r : Record) (typeName id : String)
    : (a.insert r).record? typeName id
        =
      if typeName = r.typeName ∧ id = r.id then some r else a.record? typeName id := by
  unfold record?
  rw [table_insert]
  by_cases htype : typeName = r.typeName
  . rw [if_pos htype, Keyed.get?_insert, htype]
    simp
  . simp [htype]

theorem record?_remove (a : Adapter) (typeName id typeName' id' : String)
    : (a.remove typeName id).record? typeName' id'
        =
      if typeName' = typeName ∧ id' = id then none else a.record? typeName' id' := by
  unfold record?
  rw [table_remove]
  by_cases htype : typeName' = typeName
  . rw [if_pos htype, Keyed.get?_erase, htype]
    simp
  . simp [htype]

theorem applyOps_append (a : Adapter) (ops ops' : List WriteOp)
    : a.applyOps (ops ++ ops')
        =
      ((a.applyOps ops).1 ++ ((a.applyOps ops).2.applyOps ops').1,
        ((a.applyOps ops).2.applyOps ops').2) := by
  induction ops generalizing a with
  | nil => rfl
  | cons op ops ih =>
    simp only [List.cons_append, applyOps, ih]

-- The size of the groups shows nowhere in the results.
theorem applyGroups_eq_applyOps (a : Adapter) (groups : List (List WriteOp))
    : a.applyGroups groups = a.applyOps groups.flatten := by
  induction groups generalizing a with
  | nil => rfl
  | cons ops groups ih =>
    simp only [List.flatten_cons, applyOps_append, applyGroups, ih]

theorem applyBatch_of_online {a : Adapter} (h : a.offline = false) (ops : List WriteOp)
    : a.applyBatch ops
        =
      (.ok ((a.applyOps ops).2.handOutResults (a.applyOps ops).1), (a.applyOps ops).2) := by
  unfold applyBatch checkOnline
  rw [applyGroups_eq_applyOps, flatten_chunks]
  simp [h]

theorem applyBatch_of_offline {a : Adapter} (h : a.offline = true) (ops : List WriteOp)
    : a.applyBatch ops = (.error (.storage "adapter is offline"), a) := by
  unfold applyBatch checkOnline
  simp [h]

theorem getAll_eq (a : Adapter) (typeName : String) (ids : List String)
    : a.getAll typeName ids
        =
      a.checkOnline.map fun _ => ids.map fun id => (a.record? typeName id).map a.handOut := by
  unfold getAll
  dsimp only
  rw [List.flatMap_def, ← List.map_flatten, flatten_chunks]
  cases a.checkOnline <;> rfl

/-- Two adapters that differ in their records only. -/
structure SameSettings (a b : Adapter) : Prop where
  rejected : a.rejected = b.rejected
  offline : a.offline = b.offline
  faults : a.faults = b.faults

theorem SameSettings.trans {a b c : Adapter} (hab : SameSettings a b) (hbc : SameSettings b c)
    : SameSettings a c :=
  ⟨hab.rejected.trans hbc.rejected, hab.offline.trans hbc.offline, hab.faults.trans hbc.faults⟩

theorem sameSettings_applyOp (a : Adapter) (op : WriteOp) : SameSettings (a.applyOp op).2 a := by
  unfold applyOp
  split
  . exact ⟨rfl, rfl, rfl⟩
  . split
    . exact ⟨rfl, rfl, rfl⟩
    . split <;> exact ⟨rfl, rfl, rfl⟩
    . split <;> exact ⟨rfl, rfl, rfl⟩

theorem sameSettings_applyOps (a : Adapter) (ops : List WriteOp)
    : SameSettings (a.applyOps ops).2 a := by
  induction ops generalizing a with
  | nil => exact ⟨rfl, rfl, rfl⟩
  | cons op ops ih => exact (ih _).trans (sameSettings_applyOp a op)

theorem sameSettings_applyBatch (a : Adapter) (ops : List WriteOp)
    : SameSettings (a.applyBatch ops).2 a := by
  cases h : a.offline with
  | true =>
    rw [applyBatch_of_offline h]
    exact ⟨rfl, rfl, rfl⟩
  | false =>
    rw [applyBatch_of_online h]
    apply sameSettings_applyOps

/-- Every record is stored under its own type and id. -/
def WellKept (a : Adapter) : Prop :=
  ∀ typeName id r, a.record? typeName id = some r → r.typeName = typeName ∧ r.id = id

theorem WellKept.insert {a : Adapter} (h : a.WellKept) (r : Record) : (a.insert r).WellKept := by
  intro typeName id stored hstored
  rw [record?_insert] at hstored
  split at hstored
  . next heq =>
    injection hstored with hstored
    rw [← hstored, heq.1, heq.2]
    exact ⟨rfl, rfl⟩
  . exact h typeName id stored hstored

theorem WellKept.remove {a : Adapter} (h : a.WellKept) (typeName id : String)
    : (a.remove typeName id).WellKept := by
  intro typeName' id' stored hstored
  rw [record?_remove] at hstored
  split at hstored
  . cases hstored
  . exact h typeName' id' stored hstored

theorem WellKept.applyOp {a : Adapter} (h : a.WellKept) (op : WriteOp)
    : (a.applyOp op).2.WellKept := by
  unfold Adapter.applyOp
  split
  . exact h
  . split
    . exact h.insert _
    . split
      . exact h.insert _
      . exact h
    . split
      . exact h.remove _ _
      . exact h

theorem WellKept.applyOps {a : Adapter} (h : a.WellKept) (ops : List WriteOp)
    : (a.applyOps ops).2.WellKept := by
  induction ops generalizing a with
  | nil => exact h
  | cons op ops ih => exact ih (h.applyOp op)

theorem WellKept.applyBatch {a : Adapter} (h : a.WellKept) (ops : List WriteOp)
    : (a.applyBatch ops).2.WellKept := by
  cases honline : a.offline with
  | true =>
    rw [applyBatch_of_offline honline]
    exact h
  | false =>
    rw [applyBatch_of_online honline]
    exact h.applyOps ops

/-- What an operation makes of the record of its object if it goes through. -/
def overlay (stored : Option Record) : WriteOp → Option Record
  | .put record => some record
  | .patch record => stored.map fun stored => stored.merge record
  | .delete .. => none

def isPut : WriteOp → Bool
  | .put _ => true
  | _ => false

/-- Either changes to the object are refused, or the operation needs a stored record and there is
none. -/
def Refuses (a : Adapter) (op : WriteOp) : Prop :=
  target op ∈ a.rejected ∨ isPut op = false ∧ a.record? op.typeName op.id = none

theorem applyOp_of_refuses {a : Adapter} {op : WriteOp} (h : a.Refuses op)
    : ∃ e, a.applyOp op = (.error e, a) := by
  unfold applyOp
  split
  . exact ⟨_, rfl⟩
  . next haccepted =>
    rcases h with h | ⟨hput, hnone⟩
    . exact absurd h haccepted
    . cases op with
      | put record => cases hput
      | patch record =>
        change a.record? record.typeName record.id = none at hnone
        simp [hnone]
      | delete typeName id =>
        change a.record? typeName id = none at hnone
        simp [hnone]

theorem applyOp_of_not_refuses {a : Adapter} {op : WriteOp} (hkept : a.WellKept)
    (h : ¬a.Refuses op)
    : (a.applyOp op).1 = .ok ()
        ∧
      (a.applyOp op).2.record? op.typeName op.id = overlay (a.record? op.typeName op.id) op := by
  unfold Refuses at h
  rw [not_or, not_and] at h
  obtain ⟨haccepted, hstored⟩ := h
  unfold applyOp
  rw [if_neg haccepted]
  cases op with
  | put record =>
    refine ⟨rfl, ?_⟩
    simp [record?_insert, overlay, WriteOp.typeName, WriteOp.id]
  | patch record =>
    obtain ⟨stored, hrecord⟩ := Option.ne_none_iff_exists'.1 (hstored rfl)
    change a.record? record.typeName record.id = some stored at hrecord
    obtain ⟨htype, hid⟩ := hkept _ _ _ hrecord
    simp [hrecord, record?_insert, overlay, WriteOp.typeName, WriteOp.id, htype, hid]
  | delete typeName id =>
    obtain ⟨stored, hrecord⟩ := Option.ne_none_iff_exists'.1 (hstored rfl)
    change a.record? typeName id = some stored at hrecord
    simp [hrecord, record?_remove, overlay, WriteOp.typeName, WriteOp.id]

theorem record?_applyOp_of_ne {a : Adapter} (hkept : a.WellKept) {op : WriteOp} {typeName id : String}
    (h : target op ≠ ⟨typeName, id⟩)
    : (a.applyOp op).2.record? typeName id = a.record? typeName id := by
  have hother : ¬(typeName = op.typeName ∧ id = op.id) := by
    intro heq
    exact h (by rw [target, heq.1, heq.2])
  unfold applyOp
  split
  . rfl
  . cases op with
    | put record =>
      change ¬(typeName = record.typeName ∧ id = record.id) at hother
      rw [record?_insert, if_neg hother]
    | patch record =>
      change ¬(typeName = record.typeName ∧ id = record.id) at hother
      dsimp only
      split
      . next stored hrecord =>
        obtain ⟨htype, hid⟩ := hkept _ _ _ hrecord
        rw [record?_insert, Record.merge_typeName, Record.merge_id, htype, hid, if_neg hother]
      . rfl
    | delete typeName' id' =>
      change ¬(typeName = typeName' ∧ id = id') at hother
      dsimp only
      split
      . rw [record?_remove, if_neg hother]
      . rfl

theorem record?_applyOps_of_forall_ne {a : Adapter} (hkept : a.WellKept) {ops : List WriteOp}
    {typeName id : String} (h : ∀ op ∈ ops, target op ≠ ⟨typeName, id⟩)
    : (a.applyOps ops).2.record? typeName id = a.record? typeName id := by
  induction ops generalizing a with
  | nil => rfl
  | cons op ops ih =>
    calc
      (a.applyOps (op :: ops)).2.record? typeName id
        = ((a.applyOp op).2.applyOps ops).2.record? typeName id := rfl
      _ = (a.applyOp op).2.record? typeName id :=
        ih (hkept.applyOp op) fun op' hop' => h op' (List.mem_cons_of_mem op hop')
      _ = a.record? typeName id := record?_applyOp_of_ne hkept (h op List.mem_cons_self)

theorem refuses_applyOps_iff {a : Adapter} (hkept : a.WellKept) {ops : List WriteOp} {op : WriteOp}
    (h : ∀ op' ∈ ops, target op' ≠ target op) : (a.applyOps ops).2.Refuses op ↔ a.Refuses op := by
  unfold Refuses
  rw [(sameSettings_applyOps a ops).rejected, record?_applyOps_of_forall_ne hkept h]

theorem applyOps_middle {a : Adapter} (hkept : a.WellKept) {before after : List WriteOp}
    {op : WriteOp} (hbefore : ∀ op' ∈ before, target op' ≠ target op)
    (hafter : ∀ op' ∈ after, target op' ≠ target op)
    : ∃ results result results',
        (a.applyOps (before ++ op :: after)).1 = results ++ result :: results'
          ∧
        results.length = before.length
          ∧
        (a.Refuses op →
          (∃ e, result = .error e)
            ∧
          (a.applyOps (before ++ op :: after)).2.record? op.typeName op.id
            =
          a.record? op.typeName op.id)
          ∧
        (¬a.Refuses op →
          result = .ok ()
            ∧
          (a.applyOps (before ++ op :: after)).2.record? op.typeName op.id
            =
          overlay (a.record? op.typeName op.id) op) := by
  have hkept' := hkept.applyOps before
  have hsame := record?_applyOps_of_forall_ne hkept hbefore
  have hrest : (((a.applyOps before).2.applyOp op).2.applyOps after).2.record? op.typeName op.id
      = ((a.applyOps before).2.applyOp op).2.record? op.typeName op.id :=
    record?_applyOps_of_forall_ne (hkept'.applyOp op) hafter
  refine ⟨(a.applyOps before).1, ((a.applyOps before).2.applyOp op).1,
    (((a.applyOps before).2.applyOp op).2.applyOps after).1, ?_, length_applyOps a before, ?_, ?_⟩
  . rw [applyOps_append]
    rfl
  . intro hrefuses
    obtain ⟨e, he⟩ := applyOp_of_refuses ((refuses_applyOps_iff hkept hbefore).2 hrefuses)
    refine ⟨⟨e, by rw [he]⟩, ?_⟩
    rw [applyOps_append]
    change (((a.applyOps before).2.applyOp op).2.applyOps after).2.record? op.typeName op.id = _
    rw [hrest, he]
    exact hsame
  . intro hrefuses
    obtain ⟨hok, hrecord⟩ :=
      applyOp_of_not_refuses hkept' (mt (refuses_applyOps_iff hkept hbefore).1 hrefuses)
    refine ⟨hok, ?_⟩
    rw [applyOps_append]
    change (((a.applyOps before).2.applyOp op).2.applyOps after).2.record? op.typeName op.id = _
    rw [hrest, hrecord]
    congr 1

/-- The adapters without faults that setting, inserting and writing lead to. -/
inductive Reached : Adapter → Prop where
  | empty : Reached .empty
  | withBatchLimit {a : Adapter} (limit : Nat) : Reached a → Reached (a.withBatchLimit limit)
  | withLatency {a : Adapter} (latency : Nat) : Reached a → Reached (a.withLatency latency)
  | reject {a : Adapter} (object : Identity) : Reached a → Reached (a.reject object)
  | accept {a : Adapter} (object : Identity) : Reached a → Reached (a.accept object)
  | setOffline {a : Adapter} (offline : Bool) : Reached a → Reached (a.setOffline offline)
  | noteCall {a : Adapter} (call : AdapterCall) : Reached a → Reached (a.noteCall call)
  | clearCalls {a : Adapter} : Reached a → Reached a.clearCalls
  | insert {a : Adapter} (r : Record) : Reached a → Reached (a.insert r)
  | applyBatch {a : Adapter} (ops : List WriteOp) : Reached a → Reached (a.applyBatch ops).2

theorem Reached.faults_eq {a : Adapter} (h : Reached a) : a.faults = {} := by
  induction h with
  | empty => rfl
  | withBatchLimit _ _ ih | withLatency _ _ ih | reject _ _ ih | accept _ _ ih
  | setOffline _ _ ih | noteCall _ _ ih | clearCalls _ ih | insert _ _ ih => exact ih
  | applyBatch ops _ ih => exact (sameSettings_applyBatch _ ops).faults.trans ih

theorem Reached.wellKept {a : Adapter} (h : Reached a) : a.WellKept := by
  induction h with
  | empty =>
    intro typeName id r hr
    cases hr
  | withBatchLimit _ _ ih | withLatency _ _ ih | reject _ _ ih | accept _ _ ih
  | setOffline _ _ ih | noteCall _ _ ih | clearCalls _ ih => exact ih
  | insert r _ ih => exact ih.insert r
  | applyBatch ops _ ih => exact ih.applyBatch ops

theorem handOut_of_no_faults {a : Adapter} (h : a.faults = {}) : a.handOut = id := by
  funext r
  unfold handOut
  rw [h]
  rfl

theorem handOutResults_of_no_faults {a : Adapter} (h : a.faults = {}) (results : List WriteResult)
    : a.handOutResults results = results := by
  unfold handOutResults
  rw [h]
  simp

end ObjectStore.Adapter
