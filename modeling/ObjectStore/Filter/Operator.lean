import ObjectStore.Text.Basic
import ObjectStore.Value.Order

/-!
This module contains the operators of filters and what they say about two values.
-/

namespace ObjectStore

inductive Operator where
  | eq
  | ne
  | gt
  | lt
  | ge
  | le
  | startsWith
  | contains
  | isIn
  | notIn
deriving DecidableEq, Repr

namespace Operator

def all : List Operator :=
  [eq, ne, gt, lt, ge, le, startsWith, contains, isIn, notIn]

def spelling : Operator → String
  | eq => "="
  | ne => "!="
  | gt => ">"
  | lt => "<"
  | ge => ">="
  | le => "<="
  | startsWith => "starts with"
  | contains => "contains"
  | isIn => "in"
  | notIn => "not in"

/-- A text contains another without regard to case, and a list contains an item or all items of
another list. -/
def containsValue : Value → Value → Bool
  | .string text, .string part =>
    Text.hasInfix (Text.lower part.toList) (Text.lower text.toList)
  | .array items, .array wanted => wanted.all fun w => items.any (·.matchesValue w)
  | .array items, wanted => items.any (·.matchesValue wanted)
  | _, _ => false

/-- A text starts with another without regard to case, and a list starts with an item or with the
items of another list. -/
def startsWithValue : Value → Value → Bool
  | .string text, .string start =>
    (Text.lower start.toList).isPrefixOf (Text.lower text.toList)
  | .array items, .array start =>
    start.length ≤ items.length && (items.zip start).all fun (a, b) => a.matchesValue b
  | .array items, first => items.head?.any (·.matchesValue first)
  | _, _ => false

def isAmong (actual : Value) (candidates : List Value) : Bool :=
  candidates.any fun c => actual.matchesValue c

def apply (op : Operator) (actual operand : Value) : Bool :=
  match op with
  | eq => actual.matchesValue operand
  | ne => !actual.matchesValue operand
  | gt => actual.compare? operand == some .gt
  | lt => actual.compare? operand == some .lt
  | ge => (actual.compare? operand).any (· != .lt)
  | le => (actual.compare? operand).any (· != .gt)
  | startsWith => startsWithValue actual operand
  | contains => containsValue actual operand
  | isIn =>
    match operand with
    | .array candidates => isAmong actual candidates
    | _ => false
  | notIn =>
    match operand with
    | .array candidates => !isAmong actual candidates
    | _ => false

end Operator

end ObjectStore
