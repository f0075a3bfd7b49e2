import ObjectStore.Proofs.Adapter.Content
import ObjectStore.Proofs.Adapter.Matching
import ObjectStore.Proofs.Adapter.Sort

/-!
This module proves that an adapter answers a query with a slice of one list, which is described by the
conditions and the order that the query was built from.
-/

namespace ObjectStore

/-- One call of a chain that builds a query. -/
inductive QueryStep where
  | refine (source : String) (args : List Value)
  | refineBy (entries : List (String × Value))
  | and (e : Expression)
  | orderBy (specs : List String)
  | take (limit : Nat)
  | drop (skip : Nat)

namespace QueryStep

def apply (q : Query) : QueryStep → Except StoreError Query
  | refine source args => q.refine source args
  | refineBy entries => q.refineBy entries
  | and e => .ok (q.and e)
  | orderBy specs => q.orderBy specs
  | take limit => .ok (q.take limit)
  | drop skip => .ok (q.drop skip)

def condition? (t : ObjectType) : QueryStep → Option Expression
  | refine source args => (Expression.ofSource t source args).toOption
  | refineBy entries => (Expression.ofEntries t entries).toOption
  | and e => some e
  | orderBy _ | take _ | drop _ => none

end QueryStep

namespace Query

def build (q : Query) (steps : List QueryStep) : Except StoreError Query :=
  steps.foldlM QueryStep.apply q

theorem objectType_of_apply {q q' : Query} {step : QueryStep} (h : step.apply q = .ok q')
    : q'.objectType = q.objectType := by
  cases step with
  | refine source args =>
    simp only [QueryStep.apply, refine] at h
    split at h <;> cases h
    rfl
  | refineBy entries =>
    simp only [QueryStep.apply, refineBy] at h
    split at h <;> cases h
    rfl
  | orderBy specs =>
    obtain ⟨order, _, h⟩ := bind_eq_ok.1 h
    cases h
    rfl
  | and e | take limit | drop skip =>
    cases h
    rfl

theorem evaluate_filter_of_apply {q q' : Query} {step : QueryStep} (h : step.apply q = .ok q')
    (r : Record)
    : q'.filter.evaluate r
        =
      (q.filter.evaluate r && (step.condition? q.objectType).all fun e => e.evaluate r) := by
  cases step with
  | refine source args =>
    simp only [QueryStep.apply, refine] at h
    split at h
    . next e he =>
      cases h
      simp [QueryStep.condition?, he, Query.and, Expression.evaluate_andAlso, Except.toOption]
    . cases h
  | refineBy entries =>
    simp only [QueryStep.apply, refineBy] at h
    split at h
    . next e he =>
      cases h
      simp [QueryStep.condition?, he, Query.and, Expression.evaluate_andAlso, Except.toOption]
    . cases h
  | orderBy specs =>
    obtain ⟨order, _, h⟩ := bind_eq_ok.1 h
    cases h
    simp [QueryStep.condition?]
  | and e =>
    cases h
    simp [QueryStep.condition?, Query.and, Expression.evaluate_andAlso]
  | take limit | drop skip =>
    cases h
    simp [QueryStep.condition?, Query.take, Query.drop]

theorem build_spec {q q' : Query} {steps : List QueryStep} (h : q.build steps = .ok q')
    : q'.objectType = q.objectType
        ∧
      ∀ r, q'.filter.evaluate r
        =
      (q.filter.evaluate r
        && (steps.filterMap (QueryStep.condition? q.objectType)).all fun e => e.evaluate r) := by
  induction steps generalizing q with
  | nil =>
    cases h
    simp
  | cons step steps ih =>
    unfold build at h ih
    rw [List.foldlM_cons] at h
    obtain ⟨next, hnext, h⟩ := bind_eq_ok.1 h
    obtain ⟨htype, hfilter⟩ := ih h
    have hsame := objectType_of_apply hnext
    refine ⟨htype.trans hsame, ?_⟩
    intro r
    rw [hfilter, evaluate_filter_of_apply hnext, hsame, List.filterMap_cons]
    cases step.condition? q.objectType <;> simp [Bool.and_assoc]

end Query

namespace Adapter

/-- The order of two records by the values of the key fields, first key first. Records that no key
tells apart come in ascending order of the ids. -/
def Precedes : List OrderBy → Record → Record → Prop
  | [], x, y => x.id < y.id
  | key :: keys, x, y =>
    let o := (key.field.read x).sortCompare (key.field.read y)
    o = (if key.descending then .gt else .lt) ∨ o = .eq ∧ Precedes keys x y

/-- The part of a list from the place `skip` on, of at most `limit` items. -/
def slice (skip : Nat) (limit : Option Nat) (records : List Record) : List Record :=
  records.extract skip ((limit.map (skip + ·)).getD records.length)

/-- The list of the records of a type that satisfy all conditions, in the order of the keys. -/
structure Answers (a : Adapter) (typeName : String) (conditions : List Expression)
    (order : List OrderBy) (found : List Record) : Prop where
  mem_iff : ∀ r, r ∈ found
    ↔
    (∃ id, a.record? typeName id = some r) ∧ ∀ e ∈ conditions, e.evaluate r = true
  once : (found.map Record.id).Nodup
  sorted : found.Pairwise (Precedes order)

theorem precedes_of_stablyBefore (keys : List OrderBy) {x y : Record}
    (h : StablyBefore (compareByKeys keys) (fun x y => x.id < y.id) x y) : Precedes keys x y := by
  induction keys with
  | nil =>
    rcases h with h | h
    . cases h
    . exact h.2
  | cons key keys ih =>
    have hcons : compareByKeys (key :: keys) x y
        = (key.compareRecords x y).then (compareByKeys keys x y) := rfl
    unfold StablyBefore at h ih
    rw [hcons, Ordering.then_eq_lt, Ordering.then_eq_eq] at h
    unfold OrderBy.compareRecords at h
    unfold Precedes
    dsimp only at h ⊢
    cases ho : (key.field.read x).sortCompare (key.field.read y) <;>
      cases hdescending : key.descending <;>
      simp only [ho, hdescending, Bool.false_eq_true, if_true, if_false, Ordering.swap_lt,
        Ordering.swap_eq, Ordering.swap_gt, reduceCtorEq, true_and, false_and, false_or, or_false,
        or_self] at h ⊢
    . exact ih h
    . exact ih h

theorem window_eq_slice (q : Query) (records : List Record)
    : window q records = slice q.skip q.limit records := by
  unfold window slice
  rw [List.extract_eq_take_drop]
  cases q.limit with
  | none =>
    apply Eq.symm
    apply List.take_of_length_le
    simp
  | some limit => simp

theorem length_slice (skip : Nat) (limit : Option Nat) (records : List Record)
    : (slice skip limit records).length
        =
      (limit.map (min (records.length - skip))).getD (records.length - skip) := by
  unfold slice
  cases limit with
  | none => simp
  | some limit =>
    simp
    omega

theorem select_of_normalize {a : Adapter} {q : Query} {n : Expression} (h : q.normalized = .ok n)
    : ∃ clauses,
        a.select q = .ok (sortRecords q.order (matching (a.table q.objectType.name) clauses))
          ∧
        ∀ r, clauses.any (fun clause => clause.evaluate r) = q.filter.evaluate r := by
  obtain ⟨cs, hcs, hn⟩ := Expression.normalize_eq_ok h
  refine ⟨cs.map Expression.ofClause, ?_, ?_⟩
  . unfold select
    rw [h, hn]
  . intro r
    rw [← Expression.evaluateClauses_clauses r _ _ cs hcs, ← Expression.evaluate_any_map_ofClause,
      Expression.evaluate, Expression.evaluateAny_eq_any]

theorem query_eq_slice {a : Adapter} {q : Query} {found : List Record} (hfaults : a.faults = {})
    (honline : a.offline = false) (hselect : a.select q = .ok found)
    : a.query q = .ok (slice q.skip q.limit found) := by
  unfold query checkOnline
  rw [hselect, handOut_of_no_faults hfaults, honline]
  change Except.ok ((window q found).map id) = _
  rw [List.map_id, window_eq_slice]

theorem count_eq_length_slice {a : Adapter} {q : Query} {found : List Record}
    (honline : a.offline = false) (hselect : a.select q = .ok found)
    : a.count q = .ok (slice q.skip q.limit found).length := by
  unfold count checkOnline
  rw [hselect, honline, length_slice]
  rfl

/-- A query without faults in the store answers with a slice of a list that does not depend on the
slice. -/
theorem query_of_build {a : Adapter} (ha : a.Reached) (honline : a.offline = false) (store : Store)
    (t : ObjectType) (steps : List QueryStep) (q : Query) (n : Expression)
    (hbuild : (Query.ofType store t).build steps = .ok q) (hn : q.normalized = .ok n)
    (hkeys : ∀ key ∈ q.order, key.field.type ≠ .list)
    : ∃ found,
        a.Answers t.name (steps.filterMap (QueryStep.condition? t)) q.order found
          ∧
        ∀ skip limit,
          a.query { q with skip, limit } = .ok (slice skip limit found)
            ∧
          a.count { q with skip, limit } = .ok (slice skip limit found).length := by
  obtain ⟨htype, hfilter⟩ := Query.build_spec hbuild
  obtain ⟨clauses, hselect, hclauses⟩ := select_of_normalize (a := a) hn
  have hperm := sortRecords_perm q.order (matching (a.table q.objectType.name) clauses)
  have hids := matching_pairwise clauses fun id r hr => (ha.wellKept q.objectType.name id r hr).2
  refine ⟨sortRecords q.order (matching (a.table q.objectType.name) clauses), ⟨?_, ?_, ?_⟩, ?_⟩
  . intro r
    rw [hperm.mem_iff, mem_matching, Keyed.mem_values_iff, hclauses, hfilter, htype]
    simp only [Query.ofType, Expression.evaluate, Bool.true_and, List.all_eq_true]
    rfl
  . rw [(hperm.map Record.id).nodup_iff]
    apply List.Pairwise.map _ _ hids
    intro x y hlt heq
    rw [heq] at hlt
    exact String.lt_irrefl _ hlt
  . apply (sortRecords_pairwise q.order _ hkeys hids).imp
    intro x y
    apply precedes_of_stablyBefore
  . intro skip limit
    have hsliced : a.select { q with skip, limit } = a.select q := rfl
    rw [hselect] at hsliced
    exact ⟨query_eq_slice ha.faults_eq honline hsliced, count_eq_length_slice honline hsliced⟩

def chairType : ObjectType :=
  (ObjectType.ofName "chair").addAttribute { name := "size", type := .integer }

def chair (id : String) (size : Int64) : Record :=
  (Record.ofId "chair" id).withAttribute "size" (Value.int size).toJson

def chairs : Adapter :=
  ((Adapter.empty.insert (chair "c" 2)).insert (chair "b" 5)).insert (chair "a" 2)

def bySize : List QueryStep :=
  [.and (.test ⟨.attr "size" .integer, .isIn, .array [.int 5, .int 2, .int 5]⟩), .orderBy ["-size"],
    .drop 1, .take 1]

-- Two clauses find the second chair, and the first and the third one are of the same size.
theorem query_of_build_chairs
    : ∃ q n found,
        (Query.ofType ⟨0, .empty, {}⟩ chairType).build bySize = .ok q
          ∧
        q.normalized = .ok n
          ∧
        (∀ key ∈ q.order, key.field.type ≠ .list)
          ∧
        chairs.Answers "chair" (bySize.filterMap (QueryStep.condition? chairType)) q.order found
          ∧
        chairs.query q = .ok (slice 1 (some 1) found)
          ∧
        chairs.query q = .ok [chair "a" 2] := by
  have hreached : chairs.Reached := ((Reached.empty.insert _).insert _).insert _
  have hkeys : ∀ key ∈ [OrderBy.mk (.attr "size" .integer) true], key.field.type ≠ .list := by
    intro key hkey
    cases List.mem_singleton.1 hkey
    decide
  obtain ⟨found, hanswers, hfound⟩ :=
    query_of_build hreached rfl ⟨0, .empty, {}⟩ chairType bySize _ _ rfl rfl hkeys
  exact ⟨_, _, found, rfl, rfl, hkeys, hanswers, (hfound 1 (some 1)).1, rfl⟩

end Adapter

end ObjectStore
