import ObjectStore.Adapter.Basic
import ObjectStore.Value.SortOrder

/-!
This module sorts records by the keys of an order. Records that the keys do not tell apart stay in
the order that they had.
-/

namespace ObjectStore

def insertDescending {α : Type} (less : α → α → Bool) (x : α) : List α → List α
  | [] => [x]
  | y :: ys => if less x y then y :: insertDescending less x ys else x :: y :: ys

/-- Sorts a list. Items that are not less than one another stay in their order. -/
def stableSort {α : Type} (less : α → α → Bool) (items : List α) : List α :=
  (items.foldl (fun sorted x => insertDescending less x sorted) []).reverse

theorem insertDescending_perm {α : Type} (less : α → α → Bool) (x : α) (items : List α)
    : (insertDescending less x items).Perm (x :: items) := by
  induction items with
  | nil => exact .refl _
  | cons y ys ih =>
    unfold insertDescending
    split
    . exact (ih.cons y).trans (.swap x y ys)
    . exact .refl _

theorem stableSort_perm {α : Type} (less : α → α → Bool) (items : List α)
    : (stableSort less items).Perm items := by
  have key : ∀ (items sorted : List α),
      (items.foldl (fun sorted x => insertDescending less x sorted) sorted).Perm
        (sorted ++ items) := by
    intro items
    induction items with
    | nil => intro sorted; simp
    | cons x items ih =>
      intro sorted
      refine (ih _).trans ?_
      refine ((insertDescending_perm less x sorted).append_right items).trans ?_
      exact List.perm_middle.symm
  exact (List.reverse_perm _).trans (by simpa using key items [])

namespace OrderBy

def compareRecords (key : OrderBy) (a b : Record) : Ordering :=
  let o := (key.field.read a).sortCompare (key.field.read b)
  if key.descending then o.swap else o

end OrderBy

def compareByKeys (keys : List OrderBy) (a b : Record) : Ordering :=
  keys.foldr (fun key o => (key.compareRecords a b).then o) .eq

def sortRecords (keys : List OrderBy) (records : List Record) : List Record :=
  if keys.isEmpty then
    records
  else
    stableSort (fun a b => compareByKeys keys a b == .lt) records

end ObjectStore
