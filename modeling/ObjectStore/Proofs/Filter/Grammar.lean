import ObjectStore.Filter.Condition
import ObjectStore.Filter.Token

/-!
This module contains the grammar of filters, with its derivations as trees, and reads derivations and
conditions in one way: as a list of comparisons and a truth value for each assignment to these.
-/

namespace ObjectStore

namespace Grammar

mutual

/-- A derivation of `and ("or" and)*`. -/
inductive Disjunction where
  | last (c : Conjunction)
  | or (c : Conjunction) (rest : Disjunction)

/-- A derivation of `term ("and" term)*`. -/
inductive Conjunction where
  | last (t : Term)
  | and (t : Term) (rest : Conjunction)

/-- A derivation of `"(" expr ")" | name operator "?"`. -/
inductive Term where
  | group (d : Disjunction)
  | comparison (name : String) (op : Operator)

end

mutual

def Disjunction.tokens : Disjunction → List Token
  | .last c => c.tokens
  | .or c rest => c.tokens ++ .or :: rest.tokens

def Conjunction.tokens : Conjunction → List Token
  | .last t => t.tokens
  | .and t rest => t.tokens ++ .and :: rest.tokens

def Term.tokens : Term → List Token
  | .group d => .leftParen :: (d.tokens ++ [.rightParen])
  | .comparison name op => [.identifier name, .operator op, .placeholder]

end

mutual

/-- The comparisons from left to right. -/
def Disjunction.comparisons : Disjunction → List (String × Operator)
  | .last c => c.comparisons
  | .or c rest => c.comparisons ++ rest.comparisons

def Conjunction.comparisons : Conjunction → List (String × Operator)
  | .last t => t.comparisons
  | .and t rest => t.comparisons ++ rest.comparisons

def Term.comparisons : Term → List (String × Operator)
  | .group d => d.comparisons
  | .comparison name op => [(name, op)]

end

mutual

/-- The truth value for an assignment to the comparisons, the first of which has the number `n`. -/
def Disjunction.holds (assign : Nat → Bool) (n : Nat) : Disjunction → Bool
  | .last c => c.holds assign n
  | .or c rest => c.holds assign n || rest.holds assign (n + c.comparisons.length)

def Conjunction.holds (assign : Nat → Bool) (n : Nat) : Conjunction → Bool
  | .last t => t.holds assign n
  | .and t rest => t.holds assign n && rest.holds assign (n + t.comparisons.length)

def Term.holds (assign : Nat → Bool) (n : Nat) : Term → Bool
  | .group d => d.holds assign n
  | .comparison _ _ => assign n

end

/-- The derivation of comparisons with `and` between each two of them. -/
def Conjunction.ofComparisons (first : String × Operator) : List (String × Operator) → Conjunction
  | [] => .last (.comparison first.1 first.2)
  | next :: rest => .and (.comparison first.1 first.2) (ofComparisons next rest)

namespace Conjunction

variable (first : String × Operator) (rest : List (String × Operator))

theorem tokens_ofComparisons
    : (ofComparisons first rest).tokens
        =
      List.intercalate [.and]
        ((first :: rest).map fun x => [.identifier x.1, .operator x.2, .placeholder]) := by
  induction rest generalizing first with
  | nil => rw [ofComparisons, tokens, Term.tokens, List.map_singleton, List.intercalate_singleton]
  | cons next rest ih =>
    rw [ofComparisons, tokens, ih, Term.tokens, List.map_cons, List.map_cons, List.map_cons,
      List.intercalate_cons_cons]
    simp

theorem comparisons_ofComparisons : (ofComparisons first rest).comparisons = first :: rest := by
  induction rest generalizing first with
  | nil => rfl
  | cons next rest ih =>
    rw [ofComparisons, comparisons, ih]
    rfl

theorem holds_ofComparisons (assign : Nat → Bool) (n : Nat)
    : (ofComparisons first rest).holds assign n = (List.range' n (rest.length + 1)).all assign := by
  induction rest generalizing first n with
  | nil => exact (Bool.and_true _).symm
  | cons next rest ih =>
    rw [ofComparisons, holds, ih, List.length_cons, List.range'_succ, List.all_cons]
    rfl

end Conjunction

end Grammar

namespace Condition

mutual

/-- The comparisons from left to right, each with the number of its placeholder. -/
def comparisons : Condition → List ((String × Operator) × Nat)
  | comparison field op placeholder => [((field.value, op.value), placeholder.value)]
  | all parts => partComparisons parts
  | any parts => partComparisons parts

def partComparisons : List Condition → List ((String × Operator) × Nat)
  | [] => []
  | part :: parts => part.comparisons ++ partComparisons parts

end

mutual

/-- The truth value for an assignment to the placeholders. -/
def holds (assign : Nat → Bool) : Condition → Bool
  | comparison _ _ placeholder => assign placeholder.value
  | all parts => allHold assign parts
  | any parts => anyHolds assign parts

def allHold (assign : Nat → Bool) : List Condition → Bool
  | [] => true
  | part :: parts => part.holds assign && allHold assign parts

def anyHolds (assign : Nat → Bool) : List Condition → Bool
  | [] => false
  | part :: parts => part.holds assign || anyHolds assign parts

end

mutual

theorem placeholderCount_eq (c : Condition) : c.placeholderCount = c.comparisons.length := by
  cases c with
  | comparison field op placeholder => rfl
  | all parts => exact placeholderCounts_eq parts
  | any parts => exact placeholderCounts_eq parts

theorem placeholderCounts_eq (parts : List Condition)
    : placeholderCounts parts = (partComparisons parts).length := by
  cases parts with
  | nil => rfl
  | cons part parts =>
    unfold placeholderCounts partComparisons
    rw [List.length_append, placeholderCount_eq part, placeholderCounts_eq parts]

end

theorem partComparisons_append (parts parts' : List Condition)
    : partComparisons (parts ++ parts') = partComparisons parts ++ partComparisons parts' := by
  induction parts with
  | nil => rfl
  | cons part parts ih =>
    rw [List.cons_append, partComparisons, ih, partComparisons, List.append_assoc]

theorem allHold_append (assign : Nat → Bool) (parts parts' : List Condition)
    : allHold assign (parts ++ parts') = (allHold assign parts && allHold assign parts') := by
  induction parts with
  | nil => rfl
  | cons part parts ih => rw [List.cons_append, allHold, ih, allHold, Bool.and_assoc]

theorem anyHolds_append (assign : Nat → Bool) (parts parts' : List Condition)
    : anyHolds assign (parts ++ parts') = (anyHolds assign parts || anyHolds assign parts') := by
  induction parts with
  | nil => rfl
  | cons part parts ih => rw [List.cons_append, anyHolds, ih, anyHolds, Bool.or_assoc]

variable (left right : Condition)

-- A part that is taken in leaves the others where they are.
theorem comparisons_andAlso
    : (left.andAlso right).comparisons = left.comparisons ++ right.comparisons := by
  cases left <;> simp [andAlso, comparisons, partComparisons, partComparisons_append]

theorem comparisons_orElse
    : (left.orElse right).comparisons = left.comparisons ++ right.comparisons := by
  cases left <;> simp [orElse, comparisons, partComparisons, partComparisons_append]

theorem holds_andAlso (assign : Nat → Bool)
    : (left.andAlso right).holds assign = (left.holds assign && right.holds assign) := by
  cases left <;> simp [andAlso, holds, allHold, allHold_append]

theorem holds_orElse (assign : Nat → Bool)
    : (left.orElse right).holds assign = (left.holds assign || right.holds assign) := by
  cases left <;> simp [orElse, holds, anyHolds, anyHolds_append]

/-- A condition has certain comparisons, numbered from `n` on, and a certain truth value. -/
structure Reads (c : Condition) (n : Nat) (comparisons : List (String × Operator))
    (value : (Nat → Bool) → Bool) : Prop where
  comparisons : c.comparisons = comparisons.zipIdx n
  holds : ∀ assign, c.holds assign = value assign

variable {left right} {n : Nat} {cs cs' : List (String × Operator)}
  {value value' : (Nat → Bool) → Bool}

theorem Reads.andAlso (h : left.Reads n cs value) (h' : right.Reads (n + cs.length) cs' value')
    : (left.andAlso right).Reads n (cs ++ cs') fun assign => value assign && value' assign := by
  constructor
  . rw [comparisons_andAlso, h.comparisons, h'.comparisons, List.zipIdx_append]
  . intro assign
    rw [holds_andAlso, h.holds, h'.holds]

theorem Reads.orElse (h : left.Reads n cs value) (h' : right.Reads (n + cs.length) cs' value')
    : (left.orElse right).Reads n (cs ++ cs') fun assign => value assign || value' assign := by
  constructor
  . rw [comparisons_orElse, h.comparisons, h'.comparisons, List.zipIdx_append]
  . intro assign
    rw [holds_orElse, h.holds, h'.holds]

end Condition

end ObjectStore
