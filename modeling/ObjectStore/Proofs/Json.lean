import ObjectStore.Json

/-!
This module proves that being the same is an equivalence of documents.
-/

namespace ObjectStore

theorem JsonNumber.same_self (n : JsonNumber) : n.same n = true := by
  cases n with
  | int i _ _ => exact beq_self_eq_true i
  | float x finite =>
    change (x.compare? x == some .eq) = true
    rw [Binary64.compare?_self (Binary64.isNaN_eq_false_of_isFinite finite)]
    rfl

theorem JsonNumber.same_of_same {l m n : JsonNumber} (h : l.same m = true) (h' : l.same n = true)
    : m.same n = true := by
  cases l with
  | int i _ _ =>
    cases m with
    | int j _ _ =>
      cases n with
      | int k _ _ =>
        unfold JsonNumber.same at h h' ⊢
        rw [beq_iff_eq] at h h' ⊢
        exact h.symm.trans h'
      | float _ _ => cases h'
    | float _ _ => cases h
  | float x _ =>
    cases m with
    | int _ _ _ => cases h
    | float y _ =>
      cases n with
      | int _ _ _ => cases h'
      | float z _ =>
        obtain ⟨_, hy, hplace⟩ := Binary64.same_iff.1 h
        obtain ⟨_, hz, hplace'⟩ := Binary64.same_iff.1 h'
        exact Binary64.same_iff.2 ⟨hy, hz, hplace.symm.trans hplace'⟩

mutual

theorem Json.same_self (j : Json) : j.same j = true := by
  cases j with
  | null => rfl
  | bool b => exact beq_self_eq_true b
  | number n => exact n.same_self
  | string s => exact beq_self_eq_true s
  | array items => exact Json.sameItems_self items
  | object fields => exact Json.sameFields_self fields

theorem Json.sameItems_self (items : List Json) : Json.sameItems items items = true := by
  cases items with
  | nil => rfl
  | cons item items =>
    unfold Json.sameItems
    rw [item.same_self, Json.sameItems_self items]
    rfl

theorem Json.sameFields_self (fields : List (String × Json))
    : Json.sameFields fields fields = true := by
  cases fields with
  | nil => rfl
  | cons field fields =>
    obtain ⟨name, value⟩ := field
    unfold Json.sameFields
    rw [value.same_self, Json.sameFields_self fields, beq_self_eq_true]
    rfl

end

mutual

/-- Documents that are the same as a third one are the same. They need not be equal, as both zeros are
the same. -/
theorem Json.same_of_same {j k l : Json} (h : j.same k = true) (h' : j.same l = true)
    : k.same l = true := by
  cases j with
  | null =>
    cases k with
    | null => exact h'
    | _ => cases h
  | bool a =>
    cases k with
    | bool a' =>
      cases l with
      | bool a'' =>
        unfold Json.same at h h' ⊢
        rw [beq_iff_eq] at h h' ⊢
        exact h.symm.trans h'
      | _ => cases h'
    | _ => cases h
  | number n =>
    cases k with
    | number n' =>
      cases l with
      | number n'' => exact JsonNumber.same_of_same h h'
      | _ => cases h'
    | _ => cases h
  | string s =>
    cases k with
    | string s' =>
      cases l with
      | string s'' =>
        unfold Json.same at h h' ⊢
        rw [beq_iff_eq] at h h' ⊢
        exact h.symm.trans h'
      | _ => cases h'
    | _ => cases h
  | array xs =>
    cases k with
    | array xs' =>
      cases l with
      | array xs'' => exact Json.sameItems_of_same h h'
      | _ => cases h'
    | _ => cases h
  | object fs =>
    cases k with
    | object fs' =>
      cases l with
      | object fs'' => exact Json.sameFields_of_same h h'
      | _ => cases h'
    | _ => cases h
termination_by structural j

theorem Json.sameItems_of_same {xs ys zs : List Json} (h : Json.sameItems xs ys = true)
    (h' : Json.sameItems xs zs = true) : Json.sameItems ys zs = true := by
  cases xs with
  | nil =>
    cases ys with
    | nil => exact h'
    | cons y ys => cases h
  | cons x xs =>
    cases ys with
    | nil => cases h
    | cons y ys =>
      cases zs with
      | nil => cases h'
      | cons z zs =>
        unfold Json.sameItems at h h' ⊢
        rw [Bool.and_eq_true] at h h' ⊢
        exact ⟨Json.same_of_same h.1 h'.1, Json.sameItems_of_same h.2 h'.2⟩
termination_by structural xs

theorem Json.sameFields_of_same {xs ys zs : List (String × Json)}
    (h : Json.sameFields xs ys = true) (h' : Json.sameFields xs zs = true)
    : Json.sameFields ys zs = true := by
  cases xs with
  | nil =>
    cases ys with
    | nil => exact h'
    | cons y ys => cases h
  | cons x xs =>
    obtain ⟨name, value⟩ := x
    cases ys with
    | nil => cases h
    | cons y ys =>
      cases zs with
      | nil => cases h'
      | cons z zs =>
        unfold Json.sameFields at h h' ⊢
        simp only [Bool.and_eq_true, beq_iff_eq] at h h' ⊢
        obtain ⟨⟨hname, hvalue⟩, hrest⟩ := h
        obtain ⟨⟨hname', hvalue'⟩, hrest'⟩ := h'
        exact ⟨⟨hname.symm.trans hname', Json.same_of_same hvalue hvalue'⟩,
          Json.sameFields_of_same hrest hrest'⟩
termination_by structural xs

end

theorem Json.same_comm (j k : Json) : j.same k = k.same j := by
  rw [Bool.eq_iff_iff]
  constructor
  . intro h
    exact Json.same_of_same h j.same_self
  . intro h
    exact Json.same_of_same h k.same_self

end ObjectStore
