import ObjectStore.Filter.Operator
import ObjectStore.Filter.Span

/-!
This module contains conditions: filters as they are written, before names and arguments are looked
up.
-/

namespace ObjectStore

/-- A filter as it is written. Placeholders are numbered from 0, from left to right. -/
inductive Condition where
  | comparison (field : Spanned String) (op : Spanned Operator) (placeholder : Spanned Nat)
  | all (parts : List Condition)
  | any (parts : List Condition)
deriving Repr

namespace Condition

instance : Inhabited Condition := ⟨all []⟩

mutual

def span : Condition → Span
  | comparison field _ placeholder => field.span.merge placeholder.span
  | all parts => (spans parts).getD .none
  | any parts => (spans parts).getD .none

def spans : List Condition → Option Span
  | [] => none
  | part :: parts =>
    match spans parts with
    | none => some part.span
    | some rest => some (part.span.merge rest)

end

mutual

def placeholderCount : Condition → Nat
  | comparison .. => 1
  | all parts => placeholderCounts parts
  | any parts => placeholderCounts parts

def placeholderCounts : List Condition → Nat
  | [] => 0
  | part :: parts => part.placeholderCount + placeholderCounts parts

end

/-- Puts a condition behind another with `and`. A conjunction takes it in as a further part. -/
def andAlso (left right : Condition) : Condition :=
  match left with
  | all parts => all (parts ++ [right])
  | left => all [left, right]

/-- Puts a condition behind another with `or`. A disjunction takes it in as a further part. -/
def orElse (left right : Condition) : Condition :=
  match left with
  | any parts => any (parts ++ [right])
  | left => any [left, right]

end Condition

end ObjectStore
