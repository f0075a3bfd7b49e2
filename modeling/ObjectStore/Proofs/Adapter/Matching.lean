import ObjectStore.Adapter.Read
import ObjectStore.Proofs.Keyed
import ObjectStore.Proofs.Filter.NormalForm

/-!
This module proves that the records found clause by clause are those that one of the clauses lets
through, each of them once and in ascending order of the ids, as if they were looked at only once.
-/

namespace ObjectStore.Adapter

theorem get?_ite_insert (found : Keyed Record) (key id : String) (record : Record) (wanted : Bool)
    : (if !found.contains key && wanted then found.insert key record else found).get? id
        =
      (found.get? id).or (if id = key ∧ wanted then some record else none) := by
  cases hfound : found.get? key with
  | some stored =>
    have hcontains : found.contains key = true := (found.contains_eq_true_iff key).2 ⟨stored, hfound⟩
    by_cases hid : id = key
    . simp [hcontains, hid, hfound]
    . simp [hcontains, hid]
  | none =>
    have hcontains : found.contains key = false := by
      unfold Keyed.contains
      rw [hfound]
      rfl
    by_cases hid : id = key
    . cases wanted <;> simp [hcontains, hid, hfound]
    . cases wanted <;> simp [hcontains, hid, Keyed.get?_insert]

theorem get?_matchClause (table found : Keyed Record) (clause : Expression) (id : String)
    : (matchClause table found clause).get? id
        =
      (found.get? id).or ((table.get? id).filter fun record => clause.evaluate record) := by
  obtain ⟨entries, hascending⟩ := table
  unfold matchClause Keyed.get?
  dsimp only
  induction entries generalizing found with
  | nil => simp
  | cons head entries ih =>
    obtain ⟨key, record⟩ := head
    obtain ⟨hhead, hentries⟩ := List.pairwise_cons.1 hascending
    have hinsert := get?_ite_insert found key id record (clause.evaluate record)
    unfold Keyed.get? at hinsert
    rw [List.foldl_cons, ih _ hentries, hinsert, Keyed.lookup_cons_eq_ite]
    by_cases hid : id = key
    . subst hid
      rw [lookup_eq_none_of_forall_lt hhead]
      cases hwanted : clause.evaluate record <;> simp [Option.filter, hwanted]
    . simp [hid]

theorem get?_foldl_matchClause (table found : Keyed Record) (clauses : List Expression) (id : String)
    : (clauses.foldl (matchClause table) found).get? id
        =
      (found.get? id).or
        ((table.get? id).filter fun record => clauses.any fun clause => clause.evaluate record) := by
  induction clauses generalizing found with
  | nil => cases table.get? id <;> simp [Option.filter]
  | cons clause clauses ih =>
    rw [List.foldl_cons, ih, get?_matchClause, Option.or_assoc]
    congr 1
    cases table.get? id with
    | none => rfl
    | some record =>
      cases hclause : clause.evaluate record <;> simp [Option.filter, hclause]

theorem matching_eq_filter (table : Keyed Record) (clauses : List Expression)
    : matching table clauses
        =
      table.values.filter fun r => clauses.any fun clause => clause.evaluate r := by
  have htable : clauses.foldl (matchClause table) .empty
      = table.filter fun _ r => clauses.any fun clause => clause.evaluate r := by
    apply Keyed.ext_get?
    intro id
    rw [get?_foldl_matchClause, Keyed.get?_filter, Keyed.get?_empty, Option.none_or]
  unfold matching
  rw [htable, Keyed.values_filter]

theorem mem_matching (table : Keyed Record) (clauses : List Expression) (r : Record)
    : r ∈ matching table clauses
        ↔
      r ∈ table.values ∧ clauses.any (fun clause => clause.evaluate r) = true := by
  rw [matching_eq_filter, List.mem_filter]

theorem values_pairwise {table : Keyed Record} (hkept : ∀ id r, table.get? id = some r → r.id = id)
    : table.values.Pairwise fun x y => x.id < y.id := by
  unfold Keyed.values
  rw [List.pairwise_map]
  apply table.ascending.imp_of_mem
  intro x y hx hy hlt
  rw [hkept _ _ ((table.mem_entries_iff ..).1 hx), hkept _ _ ((table.mem_entries_iff ..).1 hy)]
  exact hlt

theorem matching_pairwise {table : Keyed Record} (clauses : List Expression)
    (hkept : ∀ id r, table.get? id = some r → r.id = id)
    : (matching table clauses).Pairwise fun x y => x.id < y.id := by
  rw [matching_eq_filter]
  exact (values_pairwise hkept).filter _

end ObjectStore.Adapter
