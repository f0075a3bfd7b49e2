import ObjectStore.Proofs.Value.SortOrder

/-!
This module proves that sorting by keys puts records into their order and leaves those in place that
the keys do not tell apart.
-/

namespace ObjectStore

section StableSort

variable {α : Type} {cmp : α → α → Ordering} {before : α → α → Prop}

/-- The first item comes before the second one in the order, or neither does and it came before
already. -/
def StablyBefore (cmp : α → α → Ordering) (before : α → α → Prop) (x y : α) : Prop :=
  cmp x y = .lt ∨ cmp x y = .eq ∧ before x y

theorem insertDescending_pairwise [Std.TransCmp cmp] (x : α) (items : List α)
    (hitems : items.Pairwise fun a b => StablyBefore cmp before b a)
    (hx : ∀ y ∈ items, before y x)
    : (insertDescending (fun a b => cmp a b == .lt) x items).Pairwise
        fun a b => StablyBefore cmp before b a := by
  induction items with
  | nil => simp [insertDescending]
  | cons y ys ih =>
    obtain ⟨hy, hys⟩ := List.pairwise_cons.1 hitems
    unfold insertDescending
    split
    . next hless =>
      apply List.pairwise_cons.2
      constructor
      . intro z hz
        rcases List.mem_cons.1 ((insertDescending_perm _ x ys).mem_iff.1 hz) with rfl | hz
        . exact .inl (by simpa using hless)
        . exact hy z hz
      . apply ih hys
        intro z hz
        exact hx z (List.mem_cons_of_mem y hz)
    . next hless =>
      have hle : (cmp y x).isLE := by
        apply Std.OrientedCmp.isLE_of_isGE
        rw [Ordering.isGE_iff_ne_lt]
        simpa using hless
      apply List.pairwise_cons.2
      refine ⟨?_, hitems⟩
      intro z hz
      have hzx : (cmp z x).isLE := by
        rcases List.mem_cons.1 hz with rfl | hz
        . exact hle
        . apply Std.TransCmp.isLE_trans _ hle
          rcases hy z hz with h | h
          . simp [h]
          . simp [h.1]
      rcases Ordering.isLE_iff_eq_lt_or_eq_eq.1 hzx with h | h
      . exact .inl h
      . exact .inr ⟨h, hx z hz⟩

-- The items sorted so far came before all that are left.
theorem foldl_insertDescending_pairwise [Std.TransCmp cmp] (items sorted : List α)
    (hsorted : sorted.Pairwise fun a b => StablyBefore cmp before b a)
    (hitems : items.Pairwise before) (hleft : ∀ x ∈ sorted, ∀ y ∈ items, before x y)
    : (items.foldl (fun sorted x => insertDescending (fun a b => cmp a b == .lt) x sorted)
        sorted).Pairwise fun a b => StablyBefore cmp before b a := by
  induction items generalizing sorted with
  | nil => exact hsorted
  | cons x items ih =>
    obtain ⟨hx, hitems⟩ := List.pairwise_cons.1 hitems
    rw [List.foldl_cons]
    apply ih
    . apply insertDescending_pairwise x sorted hsorted
      intro y hy
      exact hleft y hy x List.mem_cons_self
    . exact hitems
    . intro y hy z hz
      rcases List.mem_cons.1 ((insertDescending_perm _ x sorted).mem_iff.1 hy) with rfl | hy
      . exact hx z hz
      . exact hleft y hy z (List.mem_cons_of_mem x hz)

theorem stableSort_pairwise [Std.TransCmp cmp] (items : List α) (hitems : items.Pairwise before)
    : (stableSort (fun a b => cmp a b == .lt) items).Pairwise (StablyBefore cmp before) := by
  unfold stableSort
  rw [List.pairwise_reverse]
  apply foldl_insertDescending_pairwise items []
  . exact .nil
  . exact hitems
  . simp

end StableSort

theorem OrderBy.transCmp_compareRecords (key : OrderBy) (h : key.field.type ≠ .list)
    : Std.TransCmp key.compareRecords := by
  have hfield := key.field.transCmp_sortCompare h
  cases hdescending : key.descending with
  | false =>
    have hkey : key.compareRecords = fun a b => (key.field.read a).sortCompare (key.field.read b) := by
      funext a b
      simp [OrderBy.compareRecords, hdescending]
    rw [hkey]
    exact hfield
  | true =>
    have hkey : key.compareRecords = fun a b => (key.field.read b).sortCompare (key.field.read a) := by
      funext a b
      simp only [OrderBy.compareRecords, hdescending, if_true]
      rw [hfield.eq_swap (a := b)]
    rw [hkey]
    exact Std.TransCmp.opposite

theorem transCmp_compareByKeys (keys : List OrderBy) (h : ∀ key ∈ keys, key.field.type ≠ .list)
    : Std.TransCmp (compareByKeys keys) := by
  induction keys with
  | nil => exact { eq_swap := rfl, isLE_trans := fun _ _ => rfl }
  | cons key keys ih =>
    have hkey := key.transCmp_compareRecords (h key List.mem_cons_self)
    have hkeys := ih fun key' hkey' => h key' (List.mem_cons_of_mem key hkey')
    exact inferInstanceAs (Std.TransCmp (compareLex key.compareRecords (compareByKeys keys)))

theorem sortRecords_perm (keys : List OrderBy) (records : List Record)
    : (sortRecords keys records).Perm records := by
  unfold sortRecords
  split
  . exact .refl _
  . apply stableSort_perm

theorem sortRecords_pairwise (keys : List OrderBy) (records : List Record)
    (hkeys : ∀ key ∈ keys, key.field.type ≠ .list) {before : Record → Record → Prop}
    (hrecords : records.Pairwise before)
    : (sortRecords keys records).Pairwise (StablyBefore (compareByKeys keys) before) := by
  have := transCmp_compareByKeys keys hkeys
  unfold sortRecords
  split
  . next hempty =>
    rw [List.isEmpty_iff.1 hempty]
    apply hrecords.imp
    intro x y hxy
    exact .inr ⟨rfl, hxy⟩
  . exact stableSort_pairwise records hrecords

end ObjectStore
