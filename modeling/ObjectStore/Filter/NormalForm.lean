import ObjectStore.Filter.Expression

/-!
This module brings filters into disjunctive normal form, where a store can answer one conjunctive
clause after the other. Conjunctions of disjunctions can become very long, so the number of clauses
is limited.
-/

namespace ObjectStore

structure TooManyClauses where
  limit : Nat
deriving DecidableEq, Repr

def TooManyClauses.message (e : TooManyClauses) : String :=
  s!"normalized expression exceeds {e.limit} clauses"

/-- A conjunction of filters. The empty one lets every record through. -/
abbrev Clause := List Expression

namespace Expression

def defaultLimit : Nat := 1024

def withinLimit (limit : Nat) (clauses : List Clause) : Except TooManyClauses (List Clause) :=
  if limit < clauses.length then .error ⟨limit⟩ else .ok clauses

def cross (left right : List Clause) : List Clause :=
  left.flatMap fun l => right.map fun r => l ++ r

/-- The clauses of a test. A choice among candidates has one for each of them. -/
def testClauses (t : Test) : List Clause :=
  match t.op, t.operand with
  | .isIn, .array candidates => candidates.map fun c => [equals t.field c]
  | _, _ => [[test t]]

mutual

def clauses (limit : Nat) : Expression → Except TooManyClauses (List Clause)
  | always => withinLimit limit [[]]
  | pointsAt relation id => withinLimit limit [[pointsAt relation id]]
  | test t => withinLimit limit (testClauses t)
  | any operands => do withinLimit limit (← anyClauses limit [] operands)
  | all operands => do withinLimit limit (← allClauses limit [[]] operands)

def anyClauses (limit : Nat) (acc : List Clause) :
    List Expression → Except TooManyClauses (List Clause)
  | [] => .ok acc
  | e :: es => do
    let acc ← withinLimit limit (acc ++ (← clauses limit e))
    anyClauses limit acc es

def allClauses (limit : Nat) (acc : List Clause) :
    List Expression → Except TooManyClauses (List Clause)
  | [] => .ok acc
  | e :: es => do
    let right ← clauses limit e
    if limit < acc.length * right.length then
      throw ⟨limit⟩
    else
      allClauses limit (cross acc right) es

end

def ofClause (clause : Clause) : Expression :=
  if clause.isEmpty then all [always] else all clause

def normalize (e : Expression) (limit : Nat) : Except TooManyClauses Expression := do
  return any ((← clauses limit e).map ofClause)

def isLeaf : Expression → Bool
  | all _ | any _ => false
  | _ => true

def isClause : Expression → Bool
  | all leaves => leaves.all isLeaf
  | _ => false

def isNormalized : Expression → Bool
  | any clauses => clauses.all isClause
  | _ => false

end Expression

end ObjectStore
