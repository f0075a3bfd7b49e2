import Mathlib.Data.List.Forall2

/-!
This module proves what is known of the steps of a computation that does not fail.
-/

namespace ObjectStore

variable {ε α β : Type}

theorem bind_eq_ok {x : Except ε α} {f : α → Except ε β} {b : β}
    : (x >>= f) = .ok b ↔ ∃ a, x = .ok a ∧ f a = .ok b := by
  cases x with
  | error e =>
    constructor
    . intro h
      cases h
    . rintro ⟨a, h, _⟩
      cases h
  | ok a =>
    constructor
    . intro h
      exact ⟨a, rfl, h⟩
    . rintro ⟨a', h, hf⟩
      injection h with h
      rw [h]
      exact hf

theorem bind_eq_error {x : Except ε α} {f : α → Except ε β} {e : ε}
    : (x >>= f) = .error e ↔ x = .error e ∨ ∃ a, x = .ok a ∧ f a = .error e := by
  cases x with
  | error e' =>
    constructor
    . intro h
      cases h
      exact .inl rfl
    . rintro (h | ⟨a, h, _⟩)
      . cases h
        rfl
      . cases h
  | ok a =>
    constructor
    . intro h
      exact .inr ⟨a, rfl, h⟩
    . rintro (h | ⟨a', h, hf⟩)
      . cases h
      . injection h with h
        rw [h]
        exact hf

theorem bind_pure_eq_error {x : Except ε α} {g : α → β} {e : ε}
    : (x >>= fun a => pure (g a)) = .error e ↔ x = .error e := by
  rw [bind_eq_error]
  constructor
  . rintro (h | ⟨a, -, h⟩)
    . exact h
    . cases h
  . exact .inl

theorem ite_bind {p : Prop} [Decidable p] (a : α) (e : ε) (f : α → Except ε β)
    : ((if p then .ok a else .error e) >>= f) = if p then f a else .error e := by
  split <;> rfl

theorem eq_ok_of_toOption {x : Except ε α} {a : α} (h : x.toOption = some a)
    : x = .ok a := by
  cases x with
  | error e => cases h
  | ok b =>
    cases h
    rfl

theorem mapM_eq_ok {f : α → Except ε β} {xs : List α} {ys : List β}
    : xs.mapM f = .ok ys ↔ List.Forall₂ (fun x y => f x = .ok y) xs ys := by
  induction xs generalizing ys with
  | nil =>
    rw [List.mapM_nil, List.forall₂_nil_left_iff]
    constructor
    . intro h
      cases h
      rfl
    . rintro rfl
      rfl
  | cons x xs ih =>
    simp only [List.mapM_cons, bind_eq_ok, ih, List.forall₂_cons_left_iff]
    constructor
    . rintro ⟨y, hy, ys, hys, h⟩
      cases h
      exact ⟨y, ys, hy, hys, rfl⟩
    . rintro ⟨y, ys, hy, hys, rfl⟩
      exact ⟨y, hy, ys, hys, rfl⟩

theorem exists_mapM_iff {f : α → Except ε β} {xs : List α}
    : (∃ ys, xs.mapM f = .ok ys) ↔ ∀ x ∈ xs, ∃ y, f x = .ok y := by
  simp only [mapM_eq_ok]
  induction xs with
  | nil => simp
  | cons x xs ih =>
    rw [List.forall_mem_cons, ← ih]
    constructor
    . rintro ⟨_, h⟩
      cases h with
      | cons hy hys => exact ⟨⟨_, hy⟩, _, hys⟩
    . rintro ⟨⟨y, hy⟩, ys, hys⟩
      exact ⟨y :: ys, .cons hy hys⟩

theorem mapM_eq_mapM {γ : Type} {f : α → Except ε β} {g : γ → Except ε β} {xs : List α} {ys : List γ}
    (h : List.Forall₂ (fun x y => f x = g y) xs ys) : xs.mapM f = ys.mapM g := by
  induction h with
  | nil => rw [List.mapM_nil, List.mapM_nil]
  | cons hfirst hrest ih => rw [List.mapM_cons, List.mapM_cons, hfirst, ih]

theorem mapError_bind {ε' : Type} (k : ε → ε') (x : Except ε α) (f : α → Except ε β)
    : (x >>= f).mapError k = x.mapError k >>= fun a => (f a).mapError k := by
  cases x with
  | error e => rfl
  | ok a => rfl

theorem mapError_mapM {ε' : Type} (k : ε → ε') (f : α → Except ε β) (xs : List α)
    : (xs.mapM f).mapError k = xs.mapM fun x => (f x).mapError k := by
  induction xs with
  | nil =>
    rw [List.mapM_nil, List.mapM_nil]
    rfl
  | cons x xs ih =>
    rw [List.mapM_cons, List.mapM_cons, ← ih, mapError_bind]
    simp only [mapError_bind]
    rfl

theorem mapError_eq_ok {ε' : Type} {k : ε → ε'} {x : Except ε α} {a : α}
    : x.mapError k = .ok a ↔ x = .ok a := by
  cases x with
  | error e =>
    constructor <;> intro h <;> cases h
  | ok b =>
    constructor <;> intro h <;> cases h <;> rfl

theorem mapError_eq_error {ε' : Type} {k : ε → ε'} {x : Except ε α} {e' : ε'}
    : x.mapError k = .error e' ↔ ∃ e, x = .error e ∧ e' = k e := by
  cases x with
  | error e =>
    constructor
    . intro h
      cases h
      exact ⟨e, rfl, rfl⟩
    . rintro ⟨_, h, rfl⟩
      cases h
      rfl
  | ok a =>
    constructor
    . intro h
      cases h
    . rintro ⟨_, h, -⟩
      cases h

/-- A computation for each item of a list fails as it does for the first item for which it fails. -/
theorem mapM_eq_error {f : α → Except ε β} {xs : List α} {e : ε}
    : xs.mapM f = .error e
        ↔
      ∃ front x back, xs = front ++ x :: back ∧ (∀ y ∈ front, ∃ b, f y = .ok b) ∧ f x = .error e := by
  induction xs with
  | nil =>
    rw [List.mapM_nil]
    constructor
    . intro h
      cases h
    . rintro ⟨front, x, back, h, -⟩
      exact absurd h.symm (List.append_ne_nil_of_right_ne_nil front (List.cons_ne_nil x back))
  | cons x xs ih =>
    simp only [List.mapM_cons, bind_eq_error, ih]
    constructor
    . rintro (h | ⟨b, hb, ⟨front, x', back, rfl, hfront, h⟩ | ⟨bs, -, h⟩⟩)
      . exact ⟨[], x, xs, rfl, List.forall_mem_nil _, h⟩
      . exact ⟨x :: front, x', back, rfl, List.forall_mem_cons.mpr ⟨⟨b, hb⟩, hfront⟩, h⟩
      . cases h
    . rintro ⟨front, x', back, hsplit, hfront, h⟩
      cases front with
      | nil =>
        cases hsplit
        exact .inl h
      | cons y front =>
        cases hsplit
        obtain ⟨⟨b, hb⟩, hfront⟩ := List.forall_mem_cons.mp hfront
        exact .inr ⟨b, hb, .inl ⟨front, x', back, rfl, hfront, h⟩⟩

end ObjectStore
