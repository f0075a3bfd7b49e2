import Mathlib.Algebra.Order.Ring.Nat
import ObjectStore.Proofs.Filter.NormalForm

/-!
This module distributes filters over their operands without any limit, and proves that a limit has no
influence on the clauses of a filter. Every filter has a peak, the greatest number of clauses there are at
once on the way to its own; with a lower limit there are no clauses, and with any other one they are those
of the distribution.
-/

namespace ObjectStore

/-- All ways to take one item of each list. The items of later lists vary faster. -/
def choices {α : Type} : List (List α) → List (List α)
  | [] => [[]]
  | items :: rest => items.flatMap fun item => (choices rest).map (item :: ·)

theorem length_choices {α : Type} (lists : List (List α))
    : (choices lists).length = (lists.map List.length).prod := by
  induction lists with
  | nil => rfl
  | cons items rest ih => simp [choices, List.length_flatMap, ih]

namespace Test

/-- The tests one of which has to hold for the test to hold. -/
def alternatives (t : Test) : List Test :=
  match t.op, t.operand with
  | .isIn, .array candidates => candidates.map fun candidate => ⟨t.field, .eq, candidate⟩
  | _, _ => [t]

/-- The number of candidates of a choice, and one for each other test. -/
def alternativeCount (t : Test) : Nat :=
  match t.op, t.operand with
  | .isIn, .array candidates => candidates.length
  | _, _ => 1

theorem length_alternatives (t : Test) : t.alternatives.length = t.alternativeCount := by
  unfold alternatives alternativeCount
  split
  . apply List.length_map
  . rfl

end Test

namespace Expression

mutual

/-- The clauses of a filter: those of a disjunction are the clauses of its operands one after the other,
and each clause of a conjunction joins one clause of each operand. -/
def distribution : Expression → List Clause
  | test t => t.alternatives.map fun alternative => [test alternative]
  | pointsAt relation id => [[pointsAt relation id]]
  | all operands => (choices (distributions operands)).map List.flatten
  | any operands => (distributions operands).flatten
  | always => [[]]

def distributions : List Expression → List (List Clause)
  | [] => []
  | e :: es => e.distribution :: distributions es

end

/-- The filter that a clause stands for. An empty clause is written with a filter that always holds. -/
def conjunction : Clause → Expression
  | [] => all [always]
  | leaves => all leaves

mutual

/-- The number of clauses of a filter. -/
def clauseCount : Expression → Nat
  | test t => t.alternativeCount
  | all operands => (clauseCounts operands).prod
  | any operands => (clauseCounts operands).sum
  | pointsAt _ _ | always => 1

def clauseCounts : List Expression → List Nat
  | [] => []
  | e :: es => e.clauseCount :: clauseCounts es

end

mutual

/-- The greatest number of clauses there are at once on the way to the clauses of a filter. -/
def peak : Expression → Nat
  | all operands => peakBehind (· * ·) 1 operands
  | any operands => peakBehind (· + ·) 0 operands
  | e => e.clauseCount

/-- The peak of operands behind others with `n` clauses, where each operand joins its clauses to these. -/
def peakBehind (join : Nat → Nat → Nat) (n : Nat) : List Expression → Nat
  | [] => n
  | e :: es => max e.peak (max (join n e.clauseCount) (peakBehind join (join n e.clauseCount) es))

end

theorem ite_max_le {α : Type} (a b n : Nat) (x y : α)
    : (if max a b ≤ n then x else y) = if a ≤ n then if b ≤ n then x else y else y := by
  simp only [Nat.max_le, ite_and]

mutual

theorem length_distribution (e : Expression) : e.distribution.length = e.clauseCount := by
  cases e with
  | test t => rw [distribution, clauseCount, List.length_map, t.length_alternatives]
  | all operands =>
    rw [distribution, clauseCount, List.length_map, length_choices, map_length_distributions]
  | any operands => rw [distribution, clauseCount, List.length_flatten, map_length_distributions]
  | pointsAt | always => rfl

theorem map_length_distributions (es : List Expression)
    : (distributions es).map List.length = clauseCounts es := by
  cases es with
  | nil => rfl
  | cons e es =>
    rw [distributions, clauseCounts, List.map_cons, length_distribution, map_length_distributions]

end

theorem length_cross (left right : List Clause)
    : (cross left right).length = left.length * right.length := by
  simp [cross, List.length_flatMap]

theorem cross_assoc (a b c : List Clause) : cross (cross a b) c = cross a (cross b c) := by
  unfold cross
  rw [List.flatMap_assoc]
  congr 1
  funext l
  rw [List.flatMap_map, List.map_flatMap]
  congr 1
  funext m
  rw [List.map_map]
  congr 1
  funext r
  apply List.append_assoc

theorem cross_unit (clauses : List Clause) : cross clauses [[]] = clauses := by
  simp [cross]

theorem unit_cross (clauses : List Clause) : cross [[]] clauses = clauses := by
  simp [cross]

theorem map_flatten_choices (right : List Clause) (lists : List (List Clause))
    : (choices (right :: lists)).map List.flatten = cross right ((choices lists).map List.flatten) := by
  unfold cross
  rw [choices, List.map_flatMap]
  simp [Function.comp_def]

theorem withinLimit_eq (limit : Nat) (cs : List Clause)
    : withinLimit limit cs = if cs.length ≤ limit then .ok cs else .error ⟨limit⟩ := by
  unfold withinLimit
  by_cases h : cs.length ≤ limit
  . rw [if_pos h, if_neg (Nat.not_lt.mpr h)]
  . rw [if_neg h, if_pos (Nat.not_le.mp h)]

theorem testClauses_eq (t : Test)
    : testClauses t = t.alternatives.map fun alternative => [test alternative] := by
  obtain ⟨f, op, operand⟩ := t
  cases op with
  | isIn =>
    cases operand with
    | array candidates =>
      calc
        testClauses ⟨f, .isIn, .array candidates⟩
          = candidates.map fun candidate => [equals f candidate] := rfl
        _ = (candidates.map fun candidate => ⟨f, .eq, candidate⟩).map fun alternative => [test alternative] := by
          rw [List.map_map]
          rfl
    | _ => rfl
  | _ => rfl

-- The product is known to be too long before it is made.
theorem allClauses_cons (limit : Nat) (acc : List Clause) (e : Expression) (es : List Expression)
    : allClauses limit acc (e :: es)
        =
      clauses limit e >>= fun right =>
        withinLimit limit (cross acc right) >>= fun acc => allClauses limit acc es := by
  rw [allClauses]
  congr 1
  funext right
  unfold withinLimit
  rw [length_cross]
  split <;> rfl

mutual

theorem clauses_eq (limit : Nat) (e : Expression)
    : clauses limit e = if e.peak ≤ limit then .ok e.distribution else .error ⟨limit⟩ := by
  cases e with
  | test t =>
    rw [clauses, testClauses_eq, withinLimit_eq, ← distribution, length_distribution]
    rfl
  | pointsAt | always =>
    rw [clauses, withinLimit_eq]
    rfl
  | all operands =>
    rw [clauses, allClauses_eq limit [[]] operands, unit_cross]
    rfl
  | any operands =>
    rw [clauses, anyClauses_eq limit [] operands]
    rfl

theorem anyClauses_eq (limit : Nat) (acc : List Clause) (es : List Expression)
    : anyClauses limit acc es >>= withinLimit limit
        =
      if peakBehind (· + ·) acc.length es ≤ limit then
        .ok (acc ++ (distributions es).flatten)
      else
        .error ⟨limit⟩ := by
  cases es with
  | nil =>
    rw [anyClauses, peakBehind, distributions, List.flatten_nil, List.append_nil, ← withinLimit_eq]
    rfl
  | cons e es =>
    have hlength : (acc ++ e.distribution).length = acc.length + e.clauseCount := by
      rw [List.length_append, length_distribution]
    rw [anyClauses, bind_assoc, clauses_eq limit e, ite_bind, bind_assoc, withinLimit_eq, ite_bind,
      anyClauses_eq limit (acc ++ e.distribution) es, hlength]
    rw [peakBehind, ite_max_le, ite_max_le, distributions, List.flatten_cons,
      List.append_assoc]

theorem allClauses_eq (limit : Nat) (acc : List Clause) (es : List Expression)
    : allClauses limit acc es >>= withinLimit limit
        =
      if peakBehind (· * ·) acc.length es ≤ limit then
        .ok (cross acc ((choices (distributions es)).map List.flatten))
      else
        .error ⟨limit⟩ := by
  cases es with
  | nil =>
    have hunit : (choices (distributions [])).map List.flatten = [[]] := rfl
    rw [allClauses, peakBehind, hunit, cross_unit, ← withinLimit_eq]
    rfl
  | cons e es =>
    have hlength : (cross acc e.distribution).length = acc.length * e.clauseCount := by
      rw [length_cross, length_distribution]
    rw [allClauses_cons, bind_assoc, clauses_eq limit e, ite_bind, bind_assoc, withinLimit_eq, ite_bind,
      allClauses_eq limit (cross acc e.distribution) es, hlength]
    rw [peakBehind, ite_max_le, ite_max_le, distributions, map_flatten_choices,
      cross_assoc]

end

theorem ofClause_eq_conjunction (clause : Clause) : ofClause clause = conjunction clause := by
  cases clause <;> rfl

theorem normalize_eq (e : Expression) (limit : Nat)
    : e.normalize limit
        =
      if e.peak ≤ limit then
        .ok (any (e.distribution.map conjunction))
      else
        .error ⟨limit⟩ := by
  rw [normalize, clauses_eq, ite_bind, funext ofClause_eq_conjunction]
  rfl

/-! A filter has at least as many clauses at once as its first operands have, and as it has in the end. -/

theorem foldl_front_le_peakBehind (join : Nat → Nat → Nat) (n : Nat) {front back : List Expression}
    (h : front ≠ [])
    : (clauseCounts front).foldl join n ≤ peakBehind join n (front ++ back) := by
  induction front generalizing n with
  | nil => exact absurd rfl h
  | cons e front ih =>
    rw [clauseCounts, List.foldl_cons, List.cons_append, peakBehind]
    by_cases hfront : front = []
    . rw [hfront]
      exact Nat.le_trans (Nat.le_max_left _ _) (Nat.le_max_right _ _)
    . exact Nat.le_trans (ih _ hfront) (Nat.le_trans (Nat.le_max_right _ _) (Nat.le_max_right _ _))

theorem foldl_le_peakBehind (join : Nat → Nat → Nat) (n : Nat) (es : List Expression)
    : (clauseCounts es).foldl join n ≤ peakBehind join n es := by
  cases es with
  | nil => exact Nat.le_refl n
  | cons e es =>
    have hfront : (clauseCounts (e :: es)).foldl join n ≤ peakBehind join n (e :: es ++ []) :=
      foldl_front_le_peakBehind join n (List.cons_ne_nil e es)
    rw [List.append_nil] at hfront
    exact hfront

theorem clauseCount_le_peak (e : Expression) : e.clauseCount ≤ e.peak := by
  cases e with
  | test | pointsAt | always => exact Nat.le_refl _
  | all operands =>
    rw [clauseCount, peak, List.prod_eq_foldl]
    apply foldl_le_peakBehind
  | any operands =>
    rw [clauseCount, peak, List.sum_eq_foldl]
    apply foldl_le_peakBehind

/-- The normal form of a filter lists the clauses of its distribution, no more of them than the limit
allows, and is the same for every greater limit. -/
theorem normalize_eq_distribution {e n : Expression} {limit : Nat} (h : e.normalize limit = .ok n)
    : (∃ parts, n = any parts ∧ parts = e.distribution.map conjunction ∧ parts.length ≤ limit)
        ∧
      ∀ limit', limit ≤ limit' → e.normalize limit' = .ok n := by
  rw [normalize_eq] at h
  split at h
  . next hpeak =>
    cases h
    constructor
    . refine ⟨_, rfl, rfl, ?_⟩
      calc
        (e.distribution.map conjunction).length = e.clauseCount := by
          rw [List.length_map, length_distribution]
        _ ≤ e.peak := clauseCount_le_peak e
        _ ≤ limit := hpeak
    . intro limit' hle
      rw [normalize_eq, if_pos (Nat.le_trans hpeak hle)]
  . cases h

/-- A filter for two ids, in one room or in any, beside one for all records. -/
def anyRecord : Expression :=
  any [
    all [any [pointsAt "room" "r1", all []], test ⟨.id, .isIn, .array [.string "a", .string "b"]⟩],
    always]

def anyRecordParts : List Expression :=
  [all [pointsAt "room" "r1", equals .id (.string "a")],
    all [pointsAt "room" "r1", equals .id (.string "b")],
    all [equals .id (.string "a")],
    all [equals .id (.string "b")],
    all [always]]

theorem normalize_eq_distribution_of_any_record
    : anyRecord.normalize 5 = .ok (any anyRecordParts)
        ∧ anyRecordParts = anyRecord.distribution.map conjunction
        ∧ anyRecordParts.length ≤ 5
        ∧ ∀ limit', 5 ≤ limit' → anyRecord.normalize limit' = .ok (any anyRecordParts) := by
  have h : anyRecord.normalize 5 = .ok (any anyRecordParts) := rfl
  obtain ⟨⟨parts, hparts, hdistribution, hlength⟩, hgreater⟩ := normalize_eq_distribution h
  cases hparts
  exact ⟨h, hdistribution, hlength, hgreater⟩

end Expression

end ObjectStore
