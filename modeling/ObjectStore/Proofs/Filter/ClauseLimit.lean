import Mathlib.Algebra.BigOperators.Group.List.Lemmas
import Mathlib.Algebra.Order.BigOperators.Group.List
import ObjectStore.Proofs.Filter.Distribution

/-!
This module proves which filters have too many clauses for a limit. The normal form of a filter is refused
if a part of the filter has too many, or the first operands of a conjunction in it have; a conjunction that
comes to no clauses in the end can be refused on the way. Where every conjunction has a clause, the number
of clauses of the whole filter decides.
-/

namespace ObjectStore

namespace Expression

/-- A filter is a part of itself, and the parts of its operands are parts of it. -/
inductive PartOf (part : Expression) : Expression → Prop where
  | self : PartOf part part
  | all {operand : Expression} {operands : List Expression} (hmem : operand ∈ operands)
    (hpart : PartOf part operand) : PartOf part (all operands)
  | any {operand : Expression} {operands : List Expression} (hmem : operand ∈ operands)
    (hpart : PartOf part operand) : PartOf part (any operands)

/-- A part of a filter has more clauses than the limit, or the first operands of a conjunction in it
have. -/
inductive Exceeds (limit : Nat) (e : Expression) : Prop where
  | part {part : Expression} (hpart : part.PartOf e) (h : limit < part.clauseCount)
  | front {front back : List Expression} (hpart : (all (front ++ back)).PartOf e) (hfront : front ≠ [])
    (h : limit < (all front).clauseCount)

/-- Every conjunction in a filter has a clause. -/
def Contributes (e : Expression) : Prop :=
  ∀ operands, (all operands).PartOf e → 0 < (all operands).clauseCount

variable {limit : Nat} {part e : Expression}

theorem clauseCounts_eq_map (es : List Expression) : clauseCounts es = es.map clauseCount := by
  induction es with
  | nil => rfl
  | cons e es ih => rw [clauseCounts, ih, List.map_cons]

theorem Exceeds.lift {operand : Expression} (h : operand.Exceeds limit)
    (hparts : ∀ part : Expression, part.PartOf operand → part.PartOf e) : e.Exceeds limit := by
  cases h with
  | part hpart h => exact .part (hparts _ hpart) h
  | front hpart hfront h => exact .front (hparts _ hpart) hfront h

theorem peak_le_peakBehind (join : Nat → Nat → Nat) (n : Nat) {es : List Expression} (h : e ∈ es)
    : e.peak ≤ peakBehind join n es := by
  induction h generalizing n with
  | head es => exact Nat.le_max_left _ _
  | tail _ _ ih => exact Nat.le_trans (ih _) (Nat.le_trans (Nat.le_max_right _ _) (Nat.le_max_right _ _))

/-- The peak of operands is that of one of them, or the number of clauses of all or of the first ones. -/
theorem exists_of_lt_peakBehind (join : Nat → Nat → Nat) (n : Nat) {es : List Expression}
    (h : limit < peakBehind join n es)
    : (∃ e ∈ es, limit < e.peak)
        ∨ limit < (clauseCounts es).foldl join n
        ∨ ∃ front back, es = front ++ back ∧ front ≠ [] ∧ limit < (clauseCounts front).foldl join n := by
  induction es generalizing n with
  | nil => exact .inr (.inl h)
  | cons e es ih =>
    rw [peakBehind, lt_max_iff, lt_max_iff] at h
    obtain hpeak | hcount | hrest := h
    . exact .inl ⟨e, List.mem_cons_self, hpeak⟩
    . exact .inr (.inr ⟨[e], es, rfl, List.cons_ne_nil e [], hcount⟩)
    . obtain ⟨e', he', h⟩ | h | ⟨front, back, rfl, -, h⟩ := ih _ hrest
      . exact .inl ⟨e', List.mem_cons_of_mem e he', h⟩
      . exact .inr (.inl h)
      . exact .inr (.inr ⟨e :: front, back, rfl, List.cons_ne_nil e front, h⟩)

theorem PartOf.peak_le (h : part.PartOf e) : part.peak ≤ e.peak := by
  induction h with
  | self => exact Nat.le_refl _
  | all hmem _ ih => exact Nat.le_trans ih (peak_le_peakBehind _ _ hmem)
  | any hmem _ ih => exact Nat.le_trans ih (peak_le_peakBehind _ _ hmem)

theorem Exceeds.lt_peak (h : e.Exceeds limit) : limit < e.peak := by
  cases h with
  | part hpart h =>
    exact Nat.lt_of_lt_of_le h (Nat.le_trans (clauseCount_le_peak _) hpart.peak_le)
  | @front front back hpart hfront h =>
    have hcount : (Expression.all front).clauseCount ≤ (Expression.all (front ++ back)).peak := by
      rw [clauseCount, peak, List.prod_eq_foldl]
      exact foldl_front_le_peakBehind _ _ hfront
    exact Nat.lt_of_lt_of_le h (Nat.le_trans hcount hpart.peak_le)

mutual

theorem exceeds_of_lt_peak (e : Expression) (h : limit < e.peak) : e.Exceeds limit := by
  cases e with
  | test | pointsAt | always => exact .part .self h
  | all operands =>
    obtain ⟨operand, hmem, h⟩ | h | ⟨front, back, rfl, hfront, h⟩ := exists_of_lt_peakBehind _ _ h
    . exact (exceeds_operand_of_lt_peak operands operand hmem h).lift fun part => .all hmem
    . rw [← List.prod_eq_foldl] at h
      exact .part .self h
    . rw [← List.prod_eq_foldl] at h
      exact .front .self hfront h
  | any operands =>
    obtain ⟨operand, hmem, h⟩ | h | ⟨front, back, rfl, hfront, h⟩ := exists_of_lt_peakBehind _ _ h
    . exact (exceeds_operand_of_lt_peak operands operand hmem h).lift fun part => .any hmem
    . rw [← List.sum_eq_foldl] at h
      exact .part .self h
    . -- The first operands of a disjunction have no more clauses than all.
      rw [← List.sum_eq_foldl] at h
      refine .part .self (Nat.lt_of_lt_of_le h ?_)
      rw [clauseCount, clauseCounts_eq_map, clauseCounts_eq_map, List.map_append, List.sum_append]
      exact Nat.le_add_right _ _

theorem exceeds_operand_of_lt_peak (operands : List Expression)
    : ∀ operand ∈ operands, limit < operand.peak → operand.Exceeds limit := by
  cases operands with
  | nil =>
    intro operand hmem
    cases hmem
  | cons first rest =>
    refine List.forall_mem_cons.mpr ⟨?_, exceeds_operand_of_lt_peak rest⟩
    exact exceeds_of_lt_peak first

end

theorem normalize_eq_error_iff : e.normalize limit = .error ⟨limit⟩ ↔ e.Exceeds limit := by
  rw [normalize_eq]
  split
  . next hpeak =>
    constructor
    . intro h
      cases h
    . intro h
      exact absurd h.lt_peak (Nat.not_lt.mpr hpeak)
  . next hpeak =>
    constructor
    . intro _
      exact exceeds_of_lt_peak e (Nat.not_le.mp hpeak)
    . intro _
      rfl

theorem PartOf.clauseCount_le (h : part.PartOf e) (hpositive : e.Contributes)
    : part.clauseCount ≤ e.clauseCount := by
  induction h with
  | self => exact Nat.le_refl _
  | @all operand operands hmem _ ih =>
    have hoperand : operand.clauseCount ∣ (Expression.all operands).clauseCount := by
      rw [clauseCount, clauseCounts_eq_map]
      exact List.dvd_prod (List.mem_map_of_mem hmem)
    have hle := Nat.le_of_dvd (hpositive operands .self) hoperand
    exact Nat.le_trans (ih fun parts hparts => hpositive parts (.all hmem hparts)) hle
  | @any operand operands hmem _ ih =>
    have hle : operand.clauseCount ≤ (Expression.any operands).clauseCount := by
      rw [clauseCount, clauseCounts_eq_map]
      exact List.le_sum_of_mem (List.mem_map_of_mem hmem)
    exact Nat.le_trans (ih fun parts hparts => hpositive parts (.any hmem hparts)) hle

theorem Exceeds.lt_clauseCount (h : e.Exceeds limit) (hpositive : e.Contributes)
    : limit < e.clauseCount := by
  cases h with
  | part hpart h => exact Nat.lt_of_lt_of_le h (hpart.clauseCount_le hpositive)
  | @front front back hpart _ h =>
    have hfront : (Expression.all front).clauseCount ∣ (Expression.all (front ++ back)).clauseCount := by
      rw [clauseCount, clauseCount, clauseCounts_eq_map, clauseCounts_eq_map, List.map_append,
        List.prod_append]
      exact Nat.dvd_mul_right _ _
    have hle := Nat.le_of_dvd (hpositive _ hpart) hfront
    exact Nat.lt_of_lt_of_le h (Nat.le_trans hle (hpart.clauseCount_le hpositive))

/-- The normal form of a filter is refused if and only if the limit is exceeded on the way to it. Where
every conjunction has a clause, this is so if and only if the normal form has more clauses than the limit. -/
theorem refused_iff_exceeds (e : Expression) (limit : Nat)
    : (e.normalize limit = .error ⟨limit⟩ ↔ e.Exceeds limit)
        ∧
      (e.Contributes → (e.normalize limit = .error ⟨limit⟩ ↔ limit < e.clauseCount)) := by
  constructor
  . exact normalize_eq_error_iff
  . intro hpositive
    rw [normalize_eq_error_iff]
    constructor
    . intro h
      exact h.lt_clauseCount hpositive
    . intro h
      exact .part .self h

/-- Ten times one of two rooms. -/
def tenPairs : Expression :=
  all (List.replicate 10 (any [pointsAt "room" "r1", pointsAt "room" "r2"]))

theorem contributes_tenPairs : tenPairs.Contributes := by
  intro operands hpart
  cases hpart with
  | self => decide
  | all hmem hpart =>
    rw [List.eq_of_mem_replicate hmem] at hpart
    cases hpart with
    | any hmem hpart =>
      simp only [List.mem_cons, List.not_mem_nil, or_false] at hmem
      obtain rfl | rfl := hmem <;> cases hpart

theorem refused_iff_exceeds_of_pairs
    : tenPairs.Contributes
        ∧ tenPairs.clauseCount = 1024
        ∧ tenPairs.normalize 512 = .error ⟨512⟩
        ∧ tenPairs.normalize 1024 ≠ .error ⟨1024⟩
        ∧ tenPairs.Exceeds 512 := by
  have hcount : tenPairs.clauseCount = 1024 := by decide
  have hrefused : tenPairs.normalize 512 = .error ⟨512⟩ := by
    apply ((refused_iff_exceeds tenPairs 512).2 contributes_tenPairs).mpr
    rw [hcount]
    decide
  refine ⟨contributes_tenPairs, hcount, hrefused, ?_, ?_⟩
  . intro h
    have hlt := ((refused_iff_exceeds tenPairs 1024).2 contributes_tenPairs).mp h
    rw [hcount] at hlt
    exact Nat.lt_irrefl _ hlt
  . exact (refused_iff_exceeds tenPairs 512).1.mp hrefused

def sizeAmong (a b : Int64) : Expression :=
  test ⟨.attr "size" .integer, .isIn, .array [.int a, .int b]⟩

def noId : Expression :=
  test ⟨.id, .isIn, .array []⟩

/-- A conjunction without clauses is refused or not, as the operand that has none comes last or first. -/
theorem refused_without_clauses
    : ¬((all [sizeAmong 1 2, sizeAmong 3 4, noId]).normalize 3 = .error ⟨3⟩
          ↔ 3 < (all [sizeAmong 1 2, sizeAmong 3 4, noId]).clauseCount)
        ∧ (all [sizeAmong 1 2, sizeAmong 3 4, noId]).clauseCount = 0
        ∧ (all [noId, sizeAmong 1 2, sizeAmong 3 4]).normalize 3 = .ok (any []) := by
  have hrefused : (all [sizeAmong 1 2, sizeAmong 3 4, noId]).normalize 3 = .error ⟨3⟩ := rfl
  have hcount : (all [sizeAmong 1 2, sizeAmong 3 4, noId]).clauseCount = 0 := rfl
  refine ⟨?_, hcount, rfl⟩
  intro h
  have hlt := h.mp hrefused
  rw [hcount] at hlt
  exact Nat.not_lt_zero _ hlt

end Expression

end ObjectStore
