import ObjectStore.Proofs.Schema.ReadBack

/-!
This module compares values and documents where no type is known. It proves which values are read from their
own documents, and which documents are written again for what was read from them.
-/

namespace ObjectStore

namespace Json

/-- The number stands in the document, and not inside an object. -/
inductive Shows (n : JsonNumber) : Json → Prop where
  | number : Shows n (.number n)
  | item {item : Json} {items : List Json} (hmem : item ∈ items) (h : Shows n item)
    : Shows n (.array items)

theorem shows_number_iff {m n : JsonNumber} : (number m).Shows n ↔ n = m := by
  constructor
  . intro h
    cases h
    rfl
  . rintro rfl
    exact .number

theorem shows_array_cons_iff {n : JsonNumber} {item : Json} {items : List Json}
    : (array (item :: items)).Shows n ↔ item.Shows n ∨ (array items).Shows n := by
  constructor
  . intro h
    cases h with
    | item hmem h =>
      cases hmem with
      | head => exact .inl h
      | tail _ hmem => exact .inr (.item hmem h)
  . rintro (h | h)
    . exact .item List.mem_cons_self h
    . cases h with
      | item hmem h => exact .item (List.mem_cons_of_mem item hmem) h

end Json

namespace Value

/-- The value is an item of the list, or of a list in it. -/
inductive IsItemOf (v : Value) : Value → Prop where
  | item {items : List Value} (hmem : v ∈ items) : IsItemOf v (.array items)
  | within {item : Value} {items : List Value} (hmem : item ∈ items) (h : IsItemOf v item)
    : IsItemOf v (.array items)

/-- The document of the value is read as another value, unless the type is known. -/
def needsType : Value → Bool
  | day _ | timestamp _ => true
  | json (.object _) => false
  | json _ => true
  | _ => false

/-- No item of the list, or of a list in it, has a type that is needed to read it. -/
def ItemsUntyped (v : Value) : Prop :=
  ∀ item : Value, item.IsItemOf v → item.needsType = false

/-- No item of the list, or of a list in it, is a float that is not finite. -/
def ItemsFinite (v : Value) : Prop :=
  ∀ x, (float x).IsItemOf v → x.isFinite = true

theorem toJson_ofJsonNumber_iff {n : JsonNumber}
    : (ofJsonNumber n).toJson = .number n ↔ n.isUnsigned = false := by
  refine ⟨?_, toJson_ofJsonNumber⟩
  intro h
  cases n with
  | float x finite => rfl
  | int i first_le lt_last =>
    rw [Bool.eq_false_iff]
    intro hunsigned
    obtain ⟨x, hx, hfinite⟩ := exists_float_of_isUnsigned hunsigned
    rw [hx, toJson, JsonNumber.ofFloat?, dif_pos hfinite] at h
    cases h

mutual

theorem toJson_ofJson_iff (document : Json)
    : (ofJson document).toJson = document ↔ ∀ n, document.Shows n → n.isUnsigned = false := by
  cases document with
  | null | bool | string | object =>
    refine iff_of_true rfl ?_
    intro n h
    cases h
  | number n => simp only [ofJson, toJson_ofJsonNumber_iff, Json.shows_number_iff, forall_eq]
  | array items => rw [ofJson, toJson, Json.array.injEq, toJsonItems_ofJsonItems_iff items]

theorem toJsonItems_ofJsonItems_iff (items : List Json)
    : toJsonItems (ofJsonItems items) = items
        ↔
      ∀ n, (Json.array items).Shows n → n.isUnsigned = false := by
  cases items with
  | nil =>
    refine iff_of_true rfl ?_
    intro n h
    cases h with
    | item hmem _ => cases hmem
  | cons item items =>
    simp only [ofJsonItems, toJsonItems, List.cons.injEq, toJson_ofJson_iff item,
      toJsonItems_ofJsonItems_iff items, Json.shows_array_cons_iff, or_imp, forall_and]

end

theorem isItemOf_array_cons_iff {v item : Value} {items : List Value}
    : v.IsItemOf (.array (item :: items)) ↔ v = item ∨ v.IsItemOf item ∨ v.IsItemOf (.array items) := by
  constructor
  . intro h
    cases h with
    | item hmem =>
      cases hmem with
      | head => exact .inl rfl
      | tail _ hmem => exact .inr (.inr (.item hmem))
    | within hmem h =>
      cases hmem with
      | head => exact .inr (.inl h)
      | tail _ hmem => exact .inr (.inr (.within hmem h))
  . rintro (rfl | h | h)
    . exact .item List.mem_cons_self
    . exact .within List.mem_cons_self h
    . cases h with
      | item hmem => exact .item (List.mem_cons_of_mem item hmem)
      | within hmem h => exact .within (List.mem_cons_of_mem item hmem) h

theorem not_isItemOf_array_nil (v : Value) : ¬v.IsItemOf (.array []) := by
  intro h
  cases h with
  | item hmem => cases hmem
  | within hmem _ => cases hmem

theorem itemsUntyped_of_no_list {v : Value} (h : v.array? = none) : v.ItemsUntyped := by
  intro item hitem
  cases hitem <;> cases h

theorem itemsUntyped_array_nil : (array []).ItemsUntyped := by
  intro item hitem
  exact absurd hitem (not_isItemOf_array_nil item)

theorem itemsUntyped_array_cons_iff {item : Value} {items : List Value}
    : (array (item :: items)).ItemsUntyped
        ↔
      (item.needsType = false ∧ item.ItemsUntyped) ∧ (array items).ItemsUntyped := by
  unfold ItemsUntyped
  simp only [isItemOf_array_cons_iff, or_imp, forall_and, forall_eq, and_assoc]

theorem itemsFinite_of_cons {item : Value} {items : List Value} (h : (array (item :: items)).ItemsFinite)
    : (∀ x, item = .float x → x.isFinite = true) ∧ item.ItemsFinite ∧ (array items).ItemsFinite := by
  refine ⟨?_, ?_, ?_⟩
  . rintro x rfl
    exact h x (.item List.mem_cons_self)
  . intro x hx
    exact h x (.within List.mem_cons_self hx)
  . intro x hx
    exact h x (isItemOf_array_cons_iff.mpr (.inr (.inr hx)))

theorem object_of_ofJson {document held : Json} (h : ofJson document = json held)
    : document = held ∧ (json held).needsType = false := by
  cases document with
  | object =>
    cases h
    exact ⟨rfl, rfl⟩
  | number n =>
    have hnumber := isNumber_ofJsonNumber n
    rw [ofJson] at h
    rw [h] at hnumber
    cases hnumber
  | null | bool | string | array => cases h

theorem ofJson_eq_json_iff (document : Json)
    : ofJson document = json document ↔ (json document).needsType = false := by
  constructor
  . intro h
    exact (object_of_ofJson h).2
  . intro h
    cases document with
    | object => rfl
    | _ => cases h

mutual

theorem ofJson_toJson_iff (v : Value) (hself : ∀ x, v = .float x → x.isFinite = true)
    (hitems : v.ItemsFinite) : ofJson v.toJson = v ↔ v.needsType = false ∧ v.ItemsUntyped := by
  cases v with
  | array items =>
    rw [toJson, ofJson, array.injEq, ofJsonItems_toJsonItems_iff items hitems]
    exact (and_iff_right rfl).symm
  | null | bool | string => exact iff_of_true rfl ⟨rfl, itemsUntyped_of_no_list rfl⟩
  | int i => exact iff_of_true (ofJson_toJson_int i) ⟨rfl, itemsUntyped_of_no_list rfl⟩
  | float x => exact iff_of_true (ofJsonNumber_float (hself x rfl)) ⟨rfl, itemsUntyped_of_no_list rfl⟩
  | day | timestamp =>
    refine iff_of_false ?_ ?_
    . intro h
      cases h
    . intro h
      cases h.1
  | json document => rw [toJson, ofJson_eq_json_iff, and_iff_left (itemsUntyped_of_no_list rfl)]

theorem ofJsonItems_toJsonItems_iff (items : List Value) (hfinite : (array items).ItemsFinite)
    : ofJsonItems (toJsonItems items) = items ↔ (array items).ItemsUntyped := by
  cases items with
  | nil => exact iff_of_true rfl itemsUntyped_array_nil
  | cons item items =>
    obtain ⟨hself, hitems, hrest⟩ := itemsFinite_of_cons hfinite
    rw [toJsonItems, ofJsonItems, List.cons.injEq, ofJson_toJson_iff item hself hitems,
      ofJsonItems_toJsonItems_iff items hrest, itemsUntyped_array_cons_iff]

end

/-! The document that is kept may be another one than that of the value, if it is the same up to the sign of
zeros. What is read is then the same value, under the same condition. -/

theorem needsType_of_same {a b : Json} (h : a.same b = true)
    : (json a).needsType = (json b).needsType := by
  cases a <;> cases b <;> first | rfl | cases h

theorem ofJson_same_json_iff {held document : Json} (h : held.same document = true)
    : (ofJson document).same (json held) = true ↔ (json held).needsType = false := by
  constructor
  . intro hsame
    cases hread : ofJson document with
    | json held' =>
      obtain ⟨rfl, hobject⟩ := object_of_ofJson hread
      rw [needsType_of_same h]
      exact hobject
    | _ =>
      rw [hread] at hsame
      cases hsame
  . intro hobject
    rw [needsType_of_same h, ← ofJson_eq_json_iff] at hobject
    rw [hobject, same, Json.same_comm]
    exact h

mutual

theorem ofJson_same_iff (v : Value) {document : Json} (h : v.toJson.same document = true)
    (hself : ∀ x, v = .float x → x.isFinite = true) (hitems : v.ItemsFinite)
    : (ofJson document).same v = true ↔ v.needsType = false ∧ v.ItemsUntyped := by
  cases v with
  | array items =>
    cases document with
    | array documents =>
      rw [ofJson, same, ofJsonItems_sameItems_iff items h hitems]
      exact (and_iff_right rfl).symm
    | _ => cases h
  | null =>
    refine iff_of_true ?_ ⟨rfl, itemsUntyped_of_no_list rfl⟩
    cases document with
    | null => rfl
    | _ => cases h
  | bool b =>
    refine iff_of_true ?_ ⟨rfl, itemsUntyped_of_no_list rfl⟩
    cases document with
    | bool b' => exact BEq.comm.trans h
    | _ => cases h
  | string s =>
    refine iff_of_true ?_ ⟨rfl, itemsUntyped_of_no_list rfl⟩
    cases document with
    | string s' => exact BEq.comm.trans h
    | _ => cases h
  | int i =>
    refine iff_of_true ?_ ⟨rfl, itemsUntyped_of_no_list rfl⟩
    cases document with
    | number n =>
      cases n with
      | int j _ _ =>
        obtain rfl := eq_of_beq h
        change (ofJson (toJson (.int i))).same (.int i) = true
        rw [ofJson_toJson_int]
        exact beq_self_eq_true i
      | float => cases h
    | _ => cases h
  | float x =>
    refine iff_of_true ?_ ⟨rfl, itemsUntyped_of_no_list rfl⟩
    rw [toJson, JsonNumber.ofFloat?, dif_pos (hself x rfl)] at h
    cases document with
    | number n =>
      cases n with
      | float y _ => exact (Binary64.same_comm y x).trans h
      | int => cases h
    | _ => cases h
  | day | timestamp =>
    refine iff_of_false ?_ fun huntyped => by cases huntyped.1
    cases document with
    | string s =>
      intro hsame
      cases hsame
    | _ => cases h
  | json held =>
    rw [toJson] at h
    rw [ofJson_same_json_iff h, and_iff_left (itemsUntyped_of_no_list rfl)]

theorem ofJsonItems_sameItems_iff (items : List Value) {documents : List Json}
    (h : Json.sameItems (toJsonItems items) documents = true) (hfinite : (array items).ItemsFinite)
    : sameItems (ofJsonItems documents) items = true ↔ (array items).ItemsUntyped := by
  cases items with
  | nil =>
    cases documents with
    | nil => exact iff_of_true rfl itemsUntyped_array_nil
    | cons => cases h
  | cons item items =>
    cases documents with
    | nil => cases h
    | cons document documents =>
      obtain ⟨hfirst, hothers⟩ := Bool.and_eq_true_iff.mp h
      obtain ⟨hself, hitems, hrest⟩ := itemsFinite_of_cons hfinite
      rw [ofJsonItems, sameItems, Bool.and_eq_true, ofJson_same_iff item hfirst hself hitems,
        ofJsonItems_sameItems_iff items hothers hrest, itemsUntyped_array_cons_iff]

end

end Value

end ObjectStore
