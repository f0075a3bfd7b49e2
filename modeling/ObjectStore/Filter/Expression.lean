import ObjectStore.Filter.Field

/-!
This module contains expressions: filters in which all names and arguments have been looked up, and
what they say about a record.
-/

namespace ObjectStore

structure Test where
  field : Field
  op : Operator
  operand : Value
deriving Repr

namespace Test

def evaluate (t : Test) (r : Record) : Bool :=
  t.op.apply (t.field.read r) t.operand

def text (t : Test) : String :=
  s!"{t.field.name} {t.op.spelling} {t.operand.text}"

def same (a b : Test) : Bool :=
  a.field == b.field && a.op == b.op && a.operand.same b.operand

end Test

inductive Expression where
  | test (t : Test)
  | pointsAt (relation id : String)
  | all (operands : List Expression)
  | any (operands : List Expression)
  | always
deriving Repr

namespace Expression

instance : Inhabited Expression := ⟨always⟩

def equals (field : Field) (operand : Value) : Expression :=
  test ⟨field, .eq, operand⟩

/-- Narrows a filter by another one. A conjunction takes it in as a further operand. -/
def andAlso (e other : Expression) : Expression :=
  match e with
  | always => other
  | all operands => all (operands ++ [other])
  | current => all [current, other]

def isAlways : Expression → Bool
  | always => true
  | _ => false

mutual

def evaluate (r : Record) : Expression → Bool
  | test t => t.evaluate r
  | pointsAt relation id => r.relationId? relation == some id
  | all operands => evaluateAll r operands
  | any operands => evaluateAny r operands
  | always => true

def evaluateAll (r : Record) : List Expression → Bool
  | [] => true
  | e :: es => evaluate r e && evaluateAll r es

def evaluateAny (r : Record) : List Expression → Bool
  | [] => false
  | e :: es => evaluate r e || evaluateAny r es

end

mutual

def text : Expression → String
  | test t => t.text
  | pointsAt relation id => s!"{relation} matches {Text.quoted id}"
  | all operands => "(" ++ " and ".intercalate (texts operands) ++ ")"
  | any operands => "(" ++ " or ".intercalate (texts operands) ++ ")"
  | always => "true"

def texts : List Expression → List String
  | [] => []
  | e :: es => e.text :: texts es

end

mutual

def same : Expression → Expression → Bool
  | test a, test b => a.same b
  | pointsAt r i, pointsAt r' i' => r == r' && i == i'
  | all es, all es' => sameOperands es es'
  | any es, any es' => sameOperands es es'
  | always, always => true
  | _, _ => false

def sameOperands : List Expression → List Expression → Bool
  | [], [] => true
  | e :: es, e' :: es' => e.same e' && sameOperands es es'
  | _, _ => false

end

theorem evaluateAll_eq_all (r : Record) (es : List Expression)
    : evaluateAll r es = es.all (evaluate r) := by
  induction es with
  | nil => rfl
  | cons e es ih => simp [evaluateAll, ih]

theorem evaluateAny_eq_any (r : Record) (es : List Expression)
    : evaluateAny r es = es.any (evaluate r) := by
  induction es with
  | nil => rfl
  | cons e es ih => simp [evaluateAny, ih]

theorem evaluate_andAlso (r : Record) (e other : Expression)
    : evaluate r (e.andAlso other) = (evaluate r e && evaluate r other) := by
  cases e <;> simp [andAlso, evaluate, evaluateAll, evaluateAll_eq_all, List.all_append]

end Expression

end ObjectStore
