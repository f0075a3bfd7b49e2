import ObjectStore.Proofs.Adapter.Query

/-!
This module proves what an adapter answers to a query for an id. The filter compares ids without regard
to case, so the answer is the first one of the records whose ids differ at most in case.
-/

namespace ObjectStore

theorem Expression.evaluate_equals_id (r : Record) (id : String)
    : evaluate r (equals .id (.string id)) = true ↔ Text.lowercase r.id = Text.lowercase id := by
  unfold equals evaluate Test.evaluate Operator.apply
  simp [Field.read, Value.matchesValue, Value.compare?]

theorem Query.evaluate_withId (store : Store) (t : ObjectType) (id : String) (r : Record)
    : ((ofType store t).withId id).first.filter.evaluate r = true
        ↔
      Text.lowercase r.id = Text.lowercase id := by
  unfold first take withId Query.and
  rw [Expression.evaluate_andAlso, ← Expression.evaluate_equals_id]
  simp [ofType, Expression.evaluate]

-- A single test has a single clause.
theorem Expression.clauses_equals {limit : Nat} (hcap : 1 ≤ limit) (field : Field) (operand : Value)
    : clauses limit (equals field operand) = .ok [[equals field operand]] := by
  unfold equals clauses withinLimit
  exact if_neg (Nat.not_lt.2 hcap)

theorem Query.normalized_withId {store : Store} (hcap : 1 ≤ store.config.maxClauses)
    (t : ObjectType) (id : String) : ∃ n, ((ofType store t).withId id).first.normalized = .ok n := by
  refine ⟨.any [.ofClause [.equals .id (.string id)]], ?_⟩
  change Expression.normalize (.equals .id (.string id)) store.config.maxClauses = _
  unfold Expression.normalize
  rw [Expression.clauses_equals hcap]
  rfl

namespace Adapter

theorem forall_record?_of_all (a : Adapter) (typeName : String) (p : Record → Bool)
    (h : (a.table typeName).values.all p = true) (id : String) (r : Record)
    (hr : a.record? typeName id = some r) : p r = true :=
  List.all_eq_true.1 h r ((Keyed.mem_values_iff _ r).2 ⟨id, hr⟩)

/-- A stored record of a type whose id is the same as the given one up to case. -/
structure Alike (a : Adapter) (typeName id : String) (r : Record) : Prop where
  stored : a.record? typeName r.id = some r
  alike : Text.lowercase r.id = Text.lowercase id

/-- The first one of the records whose ids are the same as the given one up to case, if there are
any. -/
def FirstAlike (a : Adapter) (typeName id : String) : Option Record → Prop
  | none => ∀ r, ¬a.Alike typeName id r
  | some r => a.Alike typeName id r ∧ ∀ r', a.Alike typeName id r' → r.id ≤ r'.id

theorem alike_of_record? {a : Adapter} (hkept : a.WellKept) {typeName id : String} {r : Record}
    (h : a.record? typeName id = some r) : a.Alike typeName id r := by
  have hid := (hkept typeName id r h).2
  exact ⟨hid ▸ h, by rw [hid]⟩

theorem firstAlike_head? {a : Adapter} {typeName id : String} {found : List Record}
    (hmem : ∀ r, r ∈ found ↔ a.Alike typeName id r)
    (hsorted : found.Pairwise fun x y => x.id < y.id) : a.FirstAlike typeName id found.head? := by
  cases found with
  | nil =>
    intro r hr
    cases (hmem r).2 hr
  | cons first rest =>
    refine ⟨(hmem first).1 List.mem_cons_self, ?_⟩
    intro r hr
    rcases List.mem_cons.1 ((hmem r).2 hr) with rfl | hrest
    . exact String.le_refl _
    . exact Std.le_of_lt ((List.pairwise_cons.1 hsorted).1 r hrest)

/-- The record under an id is the first one of those alike unless there is another one before it, or
in its place. -/
theorem record?_eq_iff_of_firstAlike {a : Adapter} (hkept : a.WellKept) {typeName id : String}
    {first : Option Record} (h : a.FirstAlike typeName id first)
    : a.record? typeName id = first
        ↔
      ∀ r, a.Alike typeName id r → a.record? typeName id ≠ none ∧ id ≤ r.id := by
  constructor
  . rintro rfl r hr
    cases hrecord : a.record? typeName id with
    | none =>
      rw [hrecord] at h
      exact absurd hr (h r)
    | some stored =>
      rw [hrecord] at h
      have hle := h.2 r hr
      rw [(hkept typeName id stored hrecord).2] at hle
      exact ⟨Option.some_ne_none stored, hle⟩
  . intro hfirst
    cases hrecord : a.record? typeName id with
    | none =>
      rw [hrecord] at hfirst
      cases first with
      | none => rfl
      | some r => exact absurd rfl (hfirst r h.1).1
    | some stored =>
      have hstored := alike_of_record? hkept hrecord
      have hid := (hkept typeName id stored hrecord).2
      cases first with
      | none => exact absurd hstored (h stored)
      | some r =>
        have hsame : r.id = id := by
          apply String.le_antisymm
          . rw [← hid]
            exact h.2 stored hstored
          . exact (hfirst r h.1).2
        rw [← hrecord, ← h.1.stored, hsame]

theorem eq_of_firstAlike {a : Adapter} (hkept : a.WellKept) {typeName id : String}
    {first : Option Record} (h : a.FirstAlike typeName id first)
    (hids : (a.record? typeName id).map Record.id = first.map Record.id)
    : a.record? typeName id = first := by
  cases hrecord : a.record? typeName id with
  | none =>
    rw [hrecord] at hids
    cases first with
    | none => rfl
    | some r => cases hids
  | some stored =>
    rw [hrecord] at hids
    cases first with
    | none => cases hids
    | some r =>
      have hid : r.id = id := (Option.some.inj hids).symm.trans (hkept typeName id stored hrecord).2
      rw [← hrecord, ← h.1.stored, hid]

/-- The answer to a query for an id, if only one object is asked for. -/
theorem query_withId {a : Adapter} (ha : a.Reached) (honline : a.offline = false) {store : Store}
    (hcap : 1 ≤ store.config.maxClauses) (t : ObjectType) (id : String)
    : ∃ first, a.query ((Query.ofType store t).withId id).first = .ok first.toList
        ∧ a.FirstAlike t.name id first := by
  obtain ⟨n, hn⟩ := Query.normalized_withId hcap t id
  obtain ⟨clauses, hselect, hclauses⟩ := select_of_normalize (a := a) hn
  refine ⟨(matching (a.table t.name) clauses).head?, ?_, ?_⟩
  . rw [query_eq_slice ha.faults_eq honline hselect]
    congr 1
    change slice 0 (some 1) (matching (a.table t.name) clauses) = _
    unfold slice
    rw [List.extract_eq_take_drop]
    cases matching (a.table t.name) clauses <;> rfl
  . apply firstAlike_head?
    . intro r
      rw [mem_matching, Keyed.mem_values_iff, hclauses, Query.evaluate_withId]
      constructor
      . rintro ⟨⟨id', hid'⟩, halike⟩
        have hid := (ha.wellKept t.name id' r hid').2
        exact ⟨hid ▸ hid', halike⟩
      . rintro ⟨hstored, halike⟩
        exact ⟨⟨r.id, hstored⟩, halike⟩
    . exact matching_pairwise clauses fun id r hr => (ha.wellKept t.name id r hr).2

end Adapter

end ObjectStore
