import ObjectStore.Proofs.Adapter.Content

/-!
This module proves that the groups in which an adapter handles its calls cannot be seen: a batch does
what its operations do in batches of their own, one after the other, and the records of many ids are the
records of each id.
-/

namespace ObjectStore.Adapter

/-- An operation in a batch of its own. Either it fails and nothing changes, or the record of its object
is what the operation makes of it and all other records are what they were. -/
inductive Alone (a : Adapter) (op : WriteOp) : WriteResult → Adapter → Prop where
  | failed (e : AdapterError) : a.Refuses op → a.applyBatch [op] = (.ok [.error e], a) →
      Alone a op (.error e) a
  | applied (b : Adapter) : ¬a.Refuses op → a.applyBatch [op] = (.ok [.ok ()], b) →
      b.record? op.typeName op.id = overlay (a.record? op.typeName op.id) op →
      (∀ typeName id, target op ≠ ⟨typeName, id⟩ →
        b.record? typeName id = a.record? typeName id) →
      Alone a op (.ok ()) b

/-- The operations one after the other, each in a batch of its own. -/
inductive OneByOne : Adapter → List WriteOp → List WriteResult → Adapter → Prop where
  | nil (a : Adapter) : OneByOne a [] [] a
  | cons {a b c : Adapter} {op : WriteOp} {ops : List WriteOp} {result : WriteResult}
      {results : List WriteResult} : Alone a op result b → OneByOne b ops results c →
      OneByOne a (op :: ops) (result :: results) c

variable {a b : Adapter} {op : WriteOp} {ops : List WriteOp} {result : WriteResult}
  {results : List WriteResult}

theorem OneByOne.length_eq (h : OneByOne a ops results b) : results.length = ops.length := by
  induction h with
  | nil => rfl
  | cons _ _ ih => rw [List.length_cons, List.length_cons, ih]

theorem applyBatch_singleton (honline : a.offline = false) (hfaults : a.faults = {}) (op : WriteOp)
    : a.applyBatch [op] = (.ok [(a.applyOp op).1], (a.applyOp op).2) := by
  have hfaults' : (a.applyOps [op]).2.faults = {} :=
    (sameSettings_applyOps a [op]).faults.trans hfaults
  rw [applyBatch_of_online honline, handOutResults_of_no_faults hfaults']
  rfl

theorem alone_applyOp (hreached : a.Reached) (honline : a.offline = false) (op : WriteOp)
    : Alone a op (a.applyOp op).1 (a.applyOp op).2 := by
  have hsingle := applyBatch_singleton honline hreached.faults_eq op
  by_cases hrefuses : a.Refuses op
  . obtain ⟨e, he⟩ := applyOp_of_refuses hrefuses
    rw [he] at hsingle ⊢
    exact .failed e hrefuses hsingle
  . obtain ⟨hok, hrecord⟩ := applyOp_of_not_refuses hreached.wellKept hrefuses
    rw [hok] at hsingle ⊢
    exact .applied _ hrefuses hsingle hrecord fun _ _ hne =>
      record?_applyOp_of_ne hreached.wellKept hne

theorem Alone.reached (h : Alone a op result b) (hreached : a.Reached) : b.Reached := by
  cases h with
  | failed => exact hreached
  | applied _ _ hbatch =>
    have hreached' := hreached.applyBatch [op]
    rw [hbatch] at hreached'
    exact hreached'

theorem oneByOne_applyOps (hreached : a.Reached) (honline : a.offline = false) (ops : List WriteOp)
    : OneByOne a ops (a.applyOps ops).1 (a.applyOps ops).2 := by
  induction ops generalizing a with
  | nil => exact .nil a
  | cons op ops ih =>
    have halone := alone_applyOp hreached honline op
    exact .cons halone
      (ih (halone.reached hreached) ((sameSettings_applyOp a op).offline.trans honline))

theorem applyOp_withBatchLimit (a : Adapter) (limit : Nat) (op : WriteOp)
    : (a.withBatchLimit limit).applyOp op
        =
      ((a.applyOp op).1, (a.applyOp op).2.withBatchLimit limit) := by
  unfold applyOp
  change (if target op ∈ a.rejected then _ else _) = _
  split
  . rfl
  . cases op with
    | put record => rfl
    | patch record =>
      have hsame : (a.withBatchLimit limit).record? record.typeName record.id
          = a.record? record.typeName record.id := rfl
      dsimp only
      rw [hsame]
      cases a.record? record.typeName record.id <;> rfl
    | delete typeName id =>
      have hsame : (a.withBatchLimit limit).record? typeName id = a.record? typeName id := rfl
      dsimp only
      rw [hsame]
      cases a.record? typeName id <;> rfl

theorem applyOps_withBatchLimit (a : Adapter) (limit : Nat) (ops : List WriteOp)
    : (a.withBatchLimit limit).applyOps ops
        =
      ((a.applyOps ops).1, (a.applyOps ops).2.withBatchLimit limit) := by
  induction ops generalizing a with
  | nil => rfl
  | cons op ops ih =>
    simp only [applyOps, applyOp_withBatchLimit, ih]

theorem applyBatch_withBatchLimit (hreached : a.Reached) (honline : a.offline = false) (limit : Nat)
    (ops : List WriteOp)
    : (a.withBatchLimit limit).applyBatch ops
        =
      (.ok (a.applyOps ops).1, (a.applyOps ops).2.withBatchLimit limit) := by
  have honline' : (a.withBatchLimit limit).offline = false := honline
  have hfaults : ((a.applyOps ops).2.withBatchLimit limit).faults = {} :=
    (sameSettings_applyOps a ops).faults.trans hreached.faults_eq
  rw [applyBatch_of_online honline', applyOps_withBatchLimit, handOutResults_of_no_faults hfaults]

theorem get_of_online (hreached : a.Reached) (honline : a.offline = false) (typeName id : String)
    : a.get typeName id = .ok (a.record? typeName id) := by
  unfold get checkOnline
  rw [honline, handOut_of_no_faults hreached.faults_eq, Option.map_id]
  rfl

theorem getAll_of_online (hreached : a.Reached) (honline : a.offline = false) (typeName : String)
    (ids : List String) : a.getAll typeName ids = .ok (ids.map (a.record? typeName)) := by
  rw [getAll_eq, handOut_of_no_faults hreached.faults_eq]
  unfold checkOnline
  rw [honline]
  simp only [Option.map_id, id]
  rfl

/-- Every record is stored under its own type and id. While the adapter is online, whatever the size of
the groups, a batch leads to the results and the tables that its operations lead to one by one, of which
a failed one changes nothing, and the records of many ids are those that each id gives, in their order. -/
theorem grouped_calls_eq_plain (hreached : a.Reached) (limit : Nat)
    : a.WellKept
        ∧
      (a.offline = false →
        (∀ ops, ∃ results b,
          (a.withBatchLimit limit).applyBatch ops = (.ok results, b.withBatchLimit limit)
            ∧
          OneByOne a ops results b
            ∧
          results.length = ops.length)
          ∧
        ∀ typeName ids, ∃ records,
          (a.withBatchLimit limit).getAll typeName ids = .ok records
            ∧
          records = ids.map (a.record? typeName)
            ∧
          ids.map (a.get typeName) = records.map .ok) := by
  refine ⟨hreached.wellKept, fun honline => ⟨?_, ?_⟩⟩
  . intro ops
    have hsteps := oneByOne_applyOps hreached honline ops
    exact ⟨_, _, applyBatch_withBatchLimit hreached honline limit ops, hsteps, hsteps.length_eq⟩
  . intro typeName ids
    refine ⟨_, getAll_of_online (hreached.withBatchLimit limit) honline typeName ids, rfl, ?_⟩
    rw [List.map_map]
    apply List.map_congr_left
    intro id _
    exact get_of_online hreached honline typeName id

def kitchen : Adapter :=
  ((empty.insert (.ofId "pan" "old")).insert (.ofId "pan" "hot")).reject ⟨"pan", "hot"⟩

def dinner : List WriteOp :=
  [.put (.ofId "pan" "new"), .delete "pan" "hot", .patch (.ofId "pot" "new"), .delete "pan" "old",
    .patch (.ofId "pan" "old")]

theorem grouped_calls_eq_plain_of_kitchen
    : kitchen.WellKept
        ∧
      ∃ results b,
        (kitchen.withBatchLimit 0).applyBatch dinner = (.ok results, b.withBatchLimit 0)
          ∧
        OneByOne kitchen dinner results b
          ∧
        results.map Except.isOk = [true, false, false, true, false]
          ∧
        (b.table "pan").names = ["hot", "new"]
          ∧
        (kitchen.withBatchLimit 0).getAll "pan" ["old", "new", "old"]
          =
        .ok [some (.ofId "pan" "old"), none, some (.ofId "pan" "old")] := by
  have hreached : kitchen.Reached := ((Reached.empty.insert _).insert _).reject _
  obtain ⟨hkept, honline⟩ := grouped_calls_eq_plain hreached 0
  obtain ⟨hbatch, hrecords⟩ := honline rfl
  obtain ⟨results, b, happlied, hsteps, _⟩ := hbatch dinner
  have heq := happlied
  rw [applyBatch_withBatchLimit hreached rfl, Prod.mk.injEq, Except.ok.injEq] at heq
  obtain ⟨hresults, hb⟩ := heq
  obtain ⟨records, hrecords, rfl, _⟩ := hrecords "pan" ["old", "new", "old"]
  refine ⟨hkept, results, b, happlied, hsteps, ?_, ?_, hrecords⟩
  . rw [← hresults]
    decide
  . change ((b.withBatchLimit 0).table "pan").names = _
    rw [← hb]
    decide

end ObjectStore.Adapter
