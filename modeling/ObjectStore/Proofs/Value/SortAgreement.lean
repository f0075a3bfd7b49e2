import ObjectStore.Proofs.Schema.Operands
import ObjectStore.Proofs.Schema.ReadBack
import ObjectStore.Proofs.Value.Comparison

/-!
This module proves that results are sorted as filters compare. Where the values of a field have an order in
filters, lists included, they have the same order in sorted results. The two could differ only where a day
is compared with a timestamp or a text, and no field reads both.
-/

namespace ObjectStore

namespace Value

/-- Holds for a day. -/
def isDay : Value → Bool
  | day _ => true
  | _ => false

variable {a b : Value} {o : Ordering}

theorem sortCompare_of_numbers_of_compare? (ha : a.isNumber = true) (hb : b.isNumber = true)
    (h : a.compare? b = some o) : a.sortCompare b = o := by
  cases a <;> cases ha <;> cases b <;> cases hb <;>
    simp only [sortCompare, sortCompareScalars, sortRank, ne_eq, not_true_eq_false, if_false, h]

mutual

/-- Where two values without days have an order in filters, they are sorted by it. -/
theorem sortCompare_of_compare? {a b : Value} {o : Ordering} (ha : a.hasScalar isDay = false)
    (hb : b.hasScalar isDay = false) (h : a.compare? b = some o) : a.sortCompare b = o := by
  cases a with
  | null => cases b <;> cases h <;> rfl
  | bool _ | json _ =>
    cases b with
    | null =>
      cases h
      rfl
    | day _ => cases hb
    | _ => cases h
  | int _ | float _ =>
    cases b with
    | null =>
      cases h
      rfl
    | int _ | float _ => exact sortCompare_of_numbers_of_compare? rfl rfl h
    | day _ => cases hb
    | _ => cases h
  | string _ =>
    cases b with
    | null | string _ =>
      cases h
      rfl
    | day _ => cases hb
    | _ => cases h
  | timestamp _ =>
    cases b with
    | null | timestamp _ =>
      cases h
      rfl
    | day _ => cases hb
    | _ => cases h
  | day _ => cases ha
  | array xs =>
    cases b with
    | null =>
      cases h
      rfl
    | array ys =>
      unfold compare? at h
      split at h
      . next hlength => exact sortCompareItems_of_compareItems? ha hb hlength h
      . cases h
    | day _ => cases hb
    | _ => cases h

-- The lists have one length, so none of them ends before the order is decided.
theorem sortCompareItems_of_compareItems? {xs ys : List Value} {o : Ordering}
    (hx : itemsHaveScalar isDay xs = false) (hy : itemsHaveScalar isDay ys = false)
    (hlength : xs.length = ys.length) (h : compareItems? xs ys = some o)
    : sortCompareItems xs ys = o := by
  cases xs with
  | nil =>
    cases ys with
    | nil =>
      cases h
      rfl
    | cons y ys => cases hlength
  | cons x xs =>
    cases ys with
    | nil => cases hlength
    | cons y ys =>
      unfold itemsHaveScalar at hx hy
      rw [Bool.or_eq_false_iff] at hx hy
      unfold compareItems? at h
      unfold sortCompareItems
      cases hitem : x.compare? y with
      | none =>
        rw [hitem] at h
        cases h
      | some o' =>
        rw [sortCompare_of_compare? hx.1 hy.1 hitem]
        rw [hitem] at h
        cases o' with
        | eq => exact sortCompareItems_of_compareItems? hx.2 hy.2 (Nat.succ.inj hlength) h
        | _ =>
          cases h
          rfl

end

mutual

/-- What is read without knowing a type has no days in it: they stay texts. -/
theorem hasScalar_isDay_ofJson (document : Json) : (ofJson document).hasScalar isDay = false := by
  cases document with
  | null | bool | string | object => rfl
  | number n =>
    unfold ofJson ofJsonNumber
    split
    . split <;> rfl
    . rfl
  | array items => exact itemsHaveScalar_isDay_ofJsonItems items

theorem itemsHaveScalar_isDay_ofJsonItems (items : List Json)
    : itemsHaveScalar isDay (ofJsonItems items) = false := by
  cases items with
  | nil => rfl
  | cons item items =>
    unfold ofJsonItems itemsHaveScalar
    rw [hasScalar_isDay_ofJson item, itemsHaveScalar_isDay_ofJsonItems items]
    rfl

end

end Value

namespace AttributeType

theorem hasScalar_isDay_of_decode {ty : AttributeType} (hty : ty ≠ .day) {document : Json} {v : Value}
    (h : ty.decode document = .ok v) : v.hasScalar Value.isDay = false := by
  cases holds_of_decode h with
  | null | text | integer | number | boolean | datetime | json => rfl
  | day => exact absurd rfl hty
  | list =>
    obtain ⟨documents, rfl⟩ := array_of_decode_list h
    exact Value.itemsHaveScalar_isDay_ofJsonItems documents

end AttributeType

namespace Field

theorem hasScalar_isDay_read {f : Field} (hf : f.type ≠ .day) (r : Record)
    : (f.read r).hasScalar Value.isDay = false := by
  cases f with
  | id => rfl
  | relation name =>
    unfold read
    dsimp only
    cases r.relationId? name <;> rfl
  | attr name ty =>
    unfold read
    dsimp only
    cases r.attributes.get? name with
    | none => rfl
    | some document =>
      dsimp only
      cases hdecode : ty.decode document with
      | error e => rfl
      | ok v => exact AttributeType.hasScalar_isDay_of_decode hf hdecode

theorem sortCompare_of_compare?_days {f : Field} (hf : f.type = .day) {r r' : Record} {o : Ordering}
    (h : (f.read r).compare? (f.read r') = some o) : (f.read r).sortCompare (f.read r') = o := by
  have hread := f.holds_read r
  have hread' := f.holds_read r'
  rw [hf] at hread hread'
  generalize f.read r = v at *
  generalize f.read r' = v' at *
  cases hread <;> cases hread' <;> cases h <;> rfl

/-- Where the values that a field reads from two records have an order in filters, they have this order in
sorted results; and all values of an ordered type have one. -/
theorem sort_agrees_with_comparison (f : Field) (r r' : Record)
    : (∀ o, (f.read r).compare? (f.read r') = some o → (f.read r).sortCompare (f.read r') = o)
        ∧
      (f.type.isOrdered = true
        → (f.read r).compare? (f.read r') = some ((f.read r).sortCompare (f.read r'))) := by
  have hagrees : ∀ o, (f.read r).compare? (f.read r') = some o
      → (f.read r).sortCompare (f.read r') = o := by
    intro o h
    by_cases hf : f.type = .day
    . exact sortCompare_of_compare?_days hf h
    . exact Value.sortCompare_of_compare? (hasScalar_isDay_read hf r) (hasScalar_isDay_read hf r') h
  refine ⟨hagrees, ?_⟩
  intro hordered
  obtain ⟨o, ho⟩ := (f.holds_read r).exists_compare? hordered (f.holds_read r')
  rw [ho, hagrees o ho]

/-- The list `[[n, text], last]`, as it is read from a record. -/
def readPath (n : JsonNumber) (text : String) (last : Json) : Value :=
  (attr "path" .list).read ((Record.ofId "route" "1").withAttribute "path"
    (.array [.array [.number n, .string text], last]))

-- The numbers are equal, and the texts behind them decide before the last items are looked at.
theorem sort_agrees_with_comparison_of_paths
    : (readPath (.int 1 (by decide) (by decide)) "b" .null).compare?
          (readPath (.float (.ofInt 1) (by decide)) "a" (.bool true)) = some .gt
        ∧
      (readPath (.int 1 (by decide) (by decide)) "b" .null).sortCompare
          (readPath (.float (.ofInt 1) (by decide)) "a" (.bool true)) = .gt := by
  have hcompare : (readPath (.int 1 (by decide) (by decide)) "b" .null).compare?
      (readPath (.float (.ofInt 1) (by decide)) "a" (.bool true)) = some .gt := by
    decide +kernel
  exact ⟨hcompare, (sort_agrees_with_comparison _ _ _).1 .gt hcompare⟩

end Field

end ObjectStore
