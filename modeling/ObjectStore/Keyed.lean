/-!
This module contains tables from names to values. The entries are kept in ascending order of their
names, so a table has one form only: two tables with the same values under the same names are equal.
-/

namespace ObjectStore

universe u v

def insertEntry {α : Type u} (name : String) (value : α) : List (String × α) → List (String × α)
  | [] => [(name, value)]
  | (name', value') :: rest =>
    if name < name' then
      (name, value) :: (name', value') :: rest
    else if name = name' then
      (name, value) :: rest
    else
      (name', value') :: insertEntry name value rest

def Ascending {α : Type u} (entries : List (String × α)) : Prop :=
  entries.Pairwise fun a b => a.1 < b.1

structure Keyed (α : Type u) where
  entries : List (String × α)
  ascending : Ascending entries

variable {α : Type u} {β : Type v}

theorem mem_insertEntry {name : String} {value : α} {entry : String × α}
    {entries : List (String × α)} (h : entry ∈ insertEntry name value entries)
    : entry = (name, value) ∨ entry ∈ entries := by
  induction entries with
  | nil => simpa [insertEntry] using h
  | cons head rest ih =>
    obtain ⟨name', value'⟩ := head
    unfold insertEntry at h
    split at h
    . simpa using h
    . split at h
      . rcases List.mem_cons.1 h with h | h
        . exact .inl h
        . exact .inr (List.mem_cons_of_mem _ h)
      . rcases List.mem_cons.1 h with h | h
        . exact .inr (by simp [h])
        . rcases ih h with h | h
          . exact .inl h
          . exact .inr (List.mem_cons_of_mem _ h)

theorem Ascending.insertEntry {name : String} {value : α} {entries : List (String × α)}
    (h : Ascending entries) : Ascending (insertEntry name value entries) := by
  induction entries with
  | nil => simp [ObjectStore.insertEntry, Ascending]
  | cons head rest ih =>
    obtain ⟨name', value'⟩ := head
    obtain ⟨hhead, hrest⟩ := List.pairwise_cons.1 h
    unfold ObjectStore.insertEntry
    split
    . next hlt =>
      refine List.pairwise_cons.2 ⟨fun entry hentry => ?_, h⟩
      rcases List.mem_cons.1 hentry with rfl | hentry
      . exact hlt
      . exact String.lt_trans hlt (hhead entry hentry)
    . split
      . next heq =>
        exact List.pairwise_cons.2 ⟨fun entry hentry => heq ▸ hhead entry hentry, hrest⟩
      . next hlt hne =>
        refine List.pairwise_cons.2 ⟨fun entry hentry => ?_, ih hrest⟩
        rcases mem_insertEntry hentry with rfl | hentry
        . exact Std.lt_of_le_of_ne (String.not_lt.1 hlt) (Ne.symm hne)
        . exact hhead entry hentry

namespace Keyed

def empty : Keyed α := ⟨[], .nil⟩

instance : EmptyCollection (Keyed α) := ⟨empty⟩

instance : Inhabited (Keyed α) := ⟨empty⟩

instance [DecidableEq α] : DecidableEq (Keyed α) := fun a b =>
  decidable_of_iff (a.entries = b.entries) (by cases a; cases b; simp)

def get? (t : Keyed α) (name : String) : Option α :=
  t.entries.lookup name

def insert (t : Keyed α) (name : String) (value : α) : Keyed α :=
  ⟨insertEntry name value t.entries, t.ascending.insertEntry⟩

def erase (t : Keyed α) (name : String) : Keyed α :=
  ⟨t.entries.filter (·.1 != name), t.ascending.filter _⟩

def contains (t : Keyed α) (name : String) : Bool :=
  (t.get? name).isSome

def names (t : Keyed α) : List String :=
  t.entries.map (·.1)

def values (t : Keyed α) : List α :=
  t.entries.map (·.2)

def isEmpty (t : Keyed α) : Bool :=
  t.entries.isEmpty

def size (t : Keyed α) : Nat :=
  t.entries.length

/-- Enters the given values one by one. A later value replaces an earlier one of the same name. -/
def ofList (entries : List (String × α)) : Keyed α :=
  entries.foldl (fun t (name, value) => t.insert name value) empty

def filter (p : String → α → Bool) (t : Keyed α) : Keyed α :=
  ⟨t.entries.filter fun (name, value) => p name value, t.ascending.filter _⟩

def map (f : String → α → β) (t : Keyed α) : Keyed β :=
  ⟨t.entries.map fun (name, value) => (name, f name value), by
    have h := t.ascending
    unfold Ascending at *
    exact List.pairwise_map.2 h⟩

def merge (t u : Keyed α) : Keyed α :=
  u.entries.foldl (fun t (name, value) => t.insert name value) t

theorem lookup_cons_eq_ite (name key : String) (value : α) (entries : List (String × α))
    : ((key, value) :: entries).lookup name
        =
      if name = key then some value else entries.lookup name := by
  rw [List.lookup_cons]
  by_cases h : name = key
  . simp [h]
  . have : (name == key) = false := by simpa using h
    simp [this, h]

theorem lookup_insertEntry (name name' : String) (value : α) (entries : List (String × α))
    : (insertEntry name value entries).lookup name'
        =
      if name' = name then some value else entries.lookup name' := by
  induction entries with
  | nil => simp [insertEntry, lookup_cons_eq_ite]
  | cons head rest ih =>
    obtain ⟨key, value'⟩ := head
    unfold insertEntry
    split
    . simp [lookup_cons_eq_ite]
    . split
      . next heq =>
        subst heq
        by_cases h : name' = name <;> simp [lookup_cons_eq_ite, h]
      . next hne =>
        by_cases h : name' = key
        . subst h
          simp [Ne.symm hne]
        . simp [lookup_cons_eq_ite, ih, h]

@[simp]
theorem get?_empty (name : String) : (empty : Keyed α).get? name = none := rfl

theorem get?_insert (t : Keyed α) (name name' : String) (value : α)
    : (t.insert name value).get? name' = if name' = name then some value else t.get? name' :=
  lookup_insertEntry ..

@[simp]
theorem get?_insert_self (t : Keyed α) (name : String) (value : α)
    : (t.insert name value).get? name = some value := by
  simp [get?_insert]

theorem lookup_filter_ne (name name' : String) (entries : List (String × α))
    : (entries.filter (·.1 != name)).lookup name'
        =
      if name' = name then none else entries.lookup name' := by
  induction entries with
  | nil => simp
  | cons head rest ih =>
    obtain ⟨key, value⟩ := head
    by_cases hk : key = name
    . subst hk
      have hdrop : ((key, value) :: rest).filter (·.1 != key) = rest.filter (·.1 != key) := by
        simp
      rw [hdrop, ih, lookup_cons_eq_ite]
      split <;> rfl
    . by_cases h : name' = key
      . subst h
        simp [hk]
      . simp [lookup_cons_eq_ite, hk, ih, h]

theorem get?_erase (t : Keyed α) (name name' : String)
    : (t.erase name).get? name' = if name' = name then none else t.get? name' :=
  lookup_filter_ne ..

@[simp]
theorem get?_erase_self (t : Keyed α) (name : String) : (t.erase name).get? name = none := by
  simp [get?_erase]

end Keyed

abbrev Names := Keyed Unit

namespace Names

def add (s : Names) (name : String) : Names :=
  s.insert name ()

def ofNames (names : List String) : Names :=
  names.foldl add .empty

end Names

end ObjectStore
