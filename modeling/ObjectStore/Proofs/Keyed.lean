import Mathlib.Data.List.Sort
import ObjectStore.Keyed

/-!
This module proves what the operations on tables do to the value under a name, and that two tables with
the same values under the same names are equal.
-/

namespace ObjectStore

universe u v

variable {α : Type u} {β : Type v}

theorem lookup_eq_none_of_forall_lt {name : String} {entries : List (String × α)}
    (h : ∀ entry ∈ entries, name < entry.1) : entries.lookup name = none := by
  induction entries with
  | nil => rfl
  | cons head rest ih =>
    obtain ⟨key, value⟩ := head
    rw [Keyed.lookup_cons_eq_ite]
    have hne : name ≠ key := by
      intro heq
      have hlt := h (key, value) List.mem_cons_self
      rw [heq] at hlt
      exact String.lt_irrefl key hlt
    rw [if_neg hne]
    apply ih
    intro entry hentry
    exact h entry (List.mem_cons_of_mem _ hentry)

theorem Ascending.mem_iff_lookup {entries : List (String × α)} (h : Ascending entries)
    (name : String) (value : α) : (name, value) ∈ entries ↔ entries.lookup name = some value := by
  induction entries with
  | nil => simp
  | cons head rest ih =>
    obtain ⟨key, value'⟩ := head
    obtain ⟨hhead, hrest⟩ := List.pairwise_cons.1 h
    rw [List.mem_cons, Keyed.lookup_cons_eq_ite, ih hrest]
    by_cases hkey : name = key
    . subst hkey
      rw [lookup_eq_none_of_forall_lt hhead]
      simp [eq_comm]
    . simp [hkey]

namespace Keyed

theorem mem_entries_iff (t : Keyed α) (name : String) (value : α)
    : (name, value) ∈ t.entries ↔ t.get? name = some value :=
  t.ascending.mem_iff_lookup name value

theorem ext_get? {t u : Keyed α} (h : ∀ name, t.get? name = u.get? name) : t = u := by
  have hirrefl : Std.Irrefl fun a b : String × α => a.1 < b.1 := ⟨fun a => String.lt_irrefl a.1⟩
  have hantisymm : Std.Antisymm fun a b : String × α => a.1 < b.1 :=
    ⟨fun a b hab hba => absurd (String.lt_trans hab hba) (String.lt_irrefl a.1)⟩
  have hentries : t.entries = u.entries := by
    apply List.Pairwise.eq_of_mem_iff t.ascending u.ascending
    rintro ⟨name, value⟩
    rw [mem_entries_iff, mem_entries_iff, h]
  cases t
  cases u
  cases hentries
  rfl

theorem values_filter (t : Keyed α) (p : α → Bool)
    : (t.filter fun _ value => p value).values = t.values.filter p := by
  unfold values filter
  rw [List.filter_map]
  rfl

theorem mem_values_iff (t : Keyed α) (value : α)
    : value ∈ t.values ↔ ∃ name, t.get? name = some value := by
  unfold values
  rw [List.mem_map]
  constructor
  . rintro ⟨⟨name, _⟩, hmem, rfl⟩
    exact ⟨name, (t.mem_entries_iff name _).1 hmem⟩
  . rintro ⟨name, hget⟩
    exact ⟨(name, value), (t.mem_entries_iff name value).2 hget, rfl⟩

theorem mem_names_iff (t : Keyed α) (name : String)
    : name ∈ t.names ↔ ∃ value, t.get? name = some value := by
  unfold names
  rw [List.mem_map]
  constructor
  . rintro ⟨⟨_, value⟩, hmem, rfl⟩
    exact ⟨value, (t.mem_entries_iff _ value).1 hmem⟩
  . rintro ⟨value, hget⟩
    exact ⟨(name, value), (t.mem_entries_iff name value).2 hget, rfl⟩

theorem names_ascending (t : Keyed α) : t.names.Pairwise (· < ·) :=
  List.pairwise_map.2 t.ascending

theorem contains_eq_true_iff (t : Keyed α) (name : String)
    : t.contains name = true ↔ ∃ value, t.get? name = some value := by
  unfold contains
  rw [Option.isSome_iff_exists]

theorem get?_eq_none_of_isEmpty {t : Keyed α} (h : t.isEmpty = true) (name : String)
    : t.get? name = none := by
  unfold isEmpty at h
  unfold get?
  rw [List.isEmpty_iff.1 h]
  rfl

@[simp]
theorem get?_filter (t : Keyed α) (p : String → α → Bool) (name : String)
    : (t.filter p).get? name = (t.get? name).filter (p name) := by
  apply Option.ext
  intro value
  rw [← mem_entries_iff, Option.filter_eq_some_iff, ← mem_entries_iff]
  unfold filter
  rw [List.mem_filter]

@[simp]
theorem get?_map (t : Keyed α) (f : String → α → β) (name : String)
    : (t.map f).get? name = (t.get? name).map (f name) := by
  apply Option.ext
  intro value
  rw [← mem_entries_iff, Option.map_eq_some_iff]
  unfold map
  rw [List.mem_map]
  constructor
  . rintro ⟨⟨key, old⟩, hmem, heq⟩
    injection heq with hkey hvalue
    subst hkey
    exact ⟨old, (t.mem_entries_iff key old).1 hmem, hvalue⟩
  . rintro ⟨old, hget, rfl⟩
    exact ⟨(name, old), (t.mem_entries_iff name old).2 hget, rfl⟩

theorem get?_foldl_insert {entries : List (String × α)} (h : Ascending entries) (t : Keyed α)
    (name : String)
    : (entries.foldl (fun t (name, value) => t.insert name value) t).get? name
        =
      (entries.lookup name).or (t.get? name) := by
  induction entries generalizing t with
  | nil => rfl
  | cons head rest ih =>
    obtain ⟨key, value⟩ := head
    obtain ⟨hhead, hrest⟩ := List.pairwise_cons.1 h
    rw [List.foldl_cons, ih hrest, lookup_cons_eq_ite, get?_insert]
    by_cases hkey : name = key
    . subst hkey
      rw [lookup_eq_none_of_forall_lt hhead]
      simp
    . simp [hkey]

@[simp]
theorem get?_merge (t u : Keyed α) (name : String)
    : (t.merge u).get? name = (u.get? name).or (t.get? name) :=
  get?_foldl_insert u.ascending t name

end Keyed

namespace Names

theorem mem_foldl_add_iff {names : List String} {s : Names} {name : String}
    : name ∈ (names.foldl add s).names ↔ name ∈ names ∨ name ∈ s.names := by
  induction names generalizing s with
  | nil => simp
  | cons head rest ih =>
    rw [List.foldl_cons, ih, List.mem_cons]
    have hadd : name ∈ (s.add head).names ↔ name = head ∨ name ∈ s.names := by
      simp only [Keyed.mem_names_iff, add, Keyed.get?_insert]
      by_cases h : name = head <;> simp [h]
    rw [hadd, or_left_comm, or_assoc]

theorem mem_ofNames_iff {names : List String} {name : String}
    : name ∈ (ofNames names).names ↔ name ∈ names := by
  rw [ofNames, mem_foldl_add_iff]
  exact or_iff_left List.not_mem_nil

end Names

end ObjectStore
