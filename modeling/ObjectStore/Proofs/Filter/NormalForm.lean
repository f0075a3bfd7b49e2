import ObjectStore.Filter.NormalForm
import ObjectStore.Proofs.Except

/-!
This module proves that the normal form of a filter says the same about every record as the filter.
The lists of clauses on the way to the normal form are read as disjunctions of conjunctions.
-/

namespace ObjectStore

namespace Expression

/-- What a list of clauses says about a record. -/
def evaluateClauses (r : Record) (clauses : List Clause) : Bool :=
  clauses.any fun clause => clause.all (evaluate r)

variable (r : Record)

@[simp]
theorem evaluateClauses_append (left right : List Clause)
    : evaluateClauses r (left ++ right) = (evaluateClauses r left || evaluateClauses r right) := by
  unfold evaluateClauses
  apply List.any_append

theorem evaluateClauses_map_append (l : Clause) (right : List Clause)
    : evaluateClauses r (right.map fun r => l ++ r)
        =
      (l.all (evaluate r) && evaluateClauses r right) := by
  induction right with
  | nil => simp [evaluateClauses]
  | cons c right ih =>
    unfold evaluateClauses at ih ⊢
    rw [List.map_cons, List.any_cons, List.any_cons, ih, List.all_append]
    cases l.all (evaluate r) <;> simp

theorem evaluateClauses_cross (left right : List Clause)
    : evaluateClauses r (cross left right)
        =
      (evaluateClauses r left && evaluateClauses r right) := by
  induction left with
  | nil => simp [cross, evaluateClauses]
  | cons l left ih =>
    unfold cross at ih ⊢
    rw [List.flatMap_cons, evaluateClauses_append, ih, evaluateClauses_map_append]
    have hcons : evaluateClauses r (l :: left) = (l.all (evaluate r) || evaluateClauses r left) := by
      unfold evaluateClauses
      apply List.any_cons
    rw [hcons, Bool.and_or_distrib_right]

-- The expansion of a choice is sound because both sides match by `Value.matchesValue`.
theorem evaluateClauses_testClauses (t : Test)
    : evaluateClauses r (testClauses t) = evaluate r (test t) := by
  unfold testClauses
  split
  . next candidates hop hoperand =>
    simp only [evaluate, Test.evaluate, hop, hoperand, Operator.apply, Operator.isAmong]
    unfold evaluateClauses
    rw [List.any_map]
    congr 1
    funext c
    simp [equals, evaluate, Test.evaluate, Operator.apply]
  . simp [evaluateClauses]

theorem eq_of_withinLimit_eq_ok {limit : Nat} {cs cs' : List Clause}
    (h : withinLimit limit cs = .ok cs') : cs' = cs := by
  unfold withinLimit at h
  split at h
  . cases h
  . injection h with h
    rw [h]

mutual

theorem evaluateClauses_clauses (limit : Nat) (e : Expression) (cs : List Clause)
    (h : clauses limit e = .ok cs) : evaluateClauses r cs = evaluate r e := by
  cases e with
  | test t =>
    unfold clauses at h
    rw [eq_of_withinLimit_eq_ok h]
    apply evaluateClauses_testClauses
  | pointsAt relation id =>
    unfold clauses at h
    rw [eq_of_withinLimit_eq_ok h]
    simp [evaluateClauses]
  | all operands =>
    unfold clauses at h
    obtain ⟨found, hfound, h⟩ := bind_eq_ok.1 h
    rw [eq_of_withinLimit_eq_ok h, evaluateClauses_allClauses limit [[]] operands found hfound]
    simp [evaluateClauses, evaluate]
  | any operands =>
    unfold clauses at h
    obtain ⟨found, hfound, h⟩ := bind_eq_ok.1 h
    rw [eq_of_withinLimit_eq_ok h, evaluateClauses_anyClauses limit [] operands found hfound]
    simp [evaluateClauses, evaluate]
  | always =>
    unfold clauses at h
    rw [eq_of_withinLimit_eq_ok h]
    simp [evaluateClauses, evaluate]

theorem evaluateClauses_anyClauses (limit : Nat) (acc : List Clause) (es : List Expression)
    (cs : List Clause) (h : anyClauses limit acc es = .ok cs)
    : evaluateClauses r cs = (evaluateClauses r acc || evaluateAny r es) := by
  cases es with
  | nil =>
    unfold anyClauses at h
    injection h with h
    simp [h, evaluateAny]
  | cons e es =>
    unfold anyClauses at h
    obtain ⟨right, hright, h⟩ := bind_eq_ok.1 h
    obtain ⟨next, hnext, h⟩ := bind_eq_ok.1 h
    rw [evaluateClauses_anyClauses limit next es cs h, eq_of_withinLimit_eq_ok hnext]
    rw [evaluateClauses_append, evaluateClauses_clauses limit e right hright]
    rw [evaluateAny, Bool.or_assoc]

theorem evaluateClauses_allClauses (limit : Nat) (acc : List Clause) (es : List Expression)
    (cs : List Clause) (h : allClauses limit acc es = .ok cs)
    : evaluateClauses r cs = (evaluateClauses r acc && evaluateAll r es) := by
  cases es with
  | nil =>
    unfold allClauses at h
    injection h with h
    simp [h, evaluateAll]
  | cons e es =>
    unfold allClauses at h
    obtain ⟨right, hright, h⟩ := bind_eq_ok.1 h
    split at h
    . cases h
    . rw [evaluateClauses_allClauses limit (cross acc right) es cs h]
      rw [evaluateClauses_cross, evaluateClauses_clauses limit e right hright]
      rw [evaluateAll, Bool.and_assoc]

end

theorem evaluate_ofClause (clause : Clause)
    : evaluate r (ofClause clause) = clause.all (evaluate r) := by
  unfold ofClause
  split
  . next h =>
    rw [List.isEmpty_iff.1 h]
    simp [evaluate, evaluateAll]
  . rw [evaluate, evaluateAll_eq_all]

theorem evaluate_any_map_ofClause (clauses : List Clause)
    : evaluate r (any (clauses.map ofClause)) = evaluateClauses r clauses := by
  rw [evaluate, evaluateAny_eq_any, List.any_map]
  unfold evaluateClauses
  congr 1
  funext clause
  apply evaluate_ofClause

theorem normalize_eq_ok {e n : Expression} {limit : Nat} (h : e.normalize limit = .ok n)
    : ∃ cs, clauses limit e = .ok cs ∧ n = any (cs.map ofClause) := by
  unfold normalize at h
  obtain ⟨cs, hcs, h⟩ := bind_eq_ok.1 h
  injection h with h
  exact ⟨cs, hcs, h.symm⟩

/-- A filter and its normal form let the same records through. -/
theorem evaluate_normalize (e n : Expression) (limit : Nat) (h : e.normalize limit = .ok n)
    : evaluate r n = evaluate r e := by
  obtain ⟨cs, hcs, rfl⟩ := normalize_eq_ok h
  rw [evaluate_any_map_ofClause]
  exact evaluateClauses_clauses r limit e cs hcs

-- An empty conjunction lets every record through, so the relationship is no test of the second
-- and fourth clause.
theorem evaluate_normalize_choice
    : (all [always, test ⟨.id, .isIn, .array [.string "a", .string "b"]⟩,
          any [pointsAt "room" "r1", all []]]).normalize 4
        =
      .ok (any [
        all [equals .id (.string "a"), pointsAt "room" "r1"],
        all [equals .id (.string "a")],
        all [equals .id (.string "b"), pointsAt "room" "r1"],
        all [equals .id (.string "b")]])
      ∧
      ∀ r : Record,
        evaluate r (any [
          all [equals .id (.string "a"), pointsAt "room" "r1"],
          all [equals .id (.string "a")],
          all [equals .id (.string "b"), pointsAt "room" "r1"],
          all [equals .id (.string "b")]])
          =
        evaluate r (all [always, test ⟨.id, .isIn, .array [.string "a", .string "b"]⟩,
          any [pointsAt "room" "r1", all []]]) :=
  ⟨rfl, fun r => evaluate_normalize r _ _ 4 rfl⟩

end Expression

end ObjectStore
