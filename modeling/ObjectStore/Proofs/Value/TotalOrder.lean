import Mathlib.Data.Set.List
import Mathlib.Tactic.Lift
import ObjectStore.Proofs.Binary64.Rounding
import ObjectStore.Proofs.Value.SortOrder

/-!
This module proves how far the order of sorted results is a total preorder. Two integers are compared
exactly, but an integer is rounded before it is compared with a float, so a float can equal two integers
that are not equal. Where this does not happen the order is a total preorder.
-/

namespace ObjectStore

namespace Binary64

variable {x y : Binary64}

theorem natAbs_place (x : Binary64) : x.place.natAbs = x.magnitude := by
  unfold place
  split <;> simp

theorem isNaN_eq_of_place_eq (h : x.place = y.place) : x.isNaN = y.isNaN := by
  unfold isNaN
  rw [← natAbs_place x, ← natAbs_place y, h]

-- The two orders differ at the zeros only.
theorem totalCompare_of_isNaN (h : x.isNaN = true ∨ y.isNaN = true)
    : x.totalCompare y = compare x.place y.place := by
  have hmagnitude : 0 < x.magnitude ∨ 0 < y.magnitude := by
    simp only [isNaN, decide_eq_true_eq] at h
    omega
  unfold totalCompare totalCompare.totalPlace place
  simp only [Int.compare_eq_ite_lt]
  cases x.negative <;> cases y.negative <;> simp <;> grind

theorem sortCompare_eq (x y : Binary64)
    : (match x.compare? y with
        | some o => o
        | none => x.totalCompare y)
        =
      compare x.place y.place := by
  unfold compare?
  by_cases hnan : x.isNaN = true ∨ y.isNaN = true
  . rw [if_pos (by simpa using hnan)]
    exact totalCompare_of_isNaN hnan
  . rw [if_neg (by simpa using hnan)]

theorem same_ofInt_of_place_eq {i : Int64} (h : (ofInt i.toInt).place = x.place)
    : (ofInt i.toInt).same x = true := by
  have hnan : (ofInt i.toInt).isNaN = false := AttributeType.isNaN_ofInt _
  exact same_iff.mpr ⟨hnan, isNaN_eq_of_place_eq h ▸ hnan, h⟩

end Binary64

namespace Value

variable {a b c : Value}

theorem sortCompare_of_rank_ne (h : a.sortRank ≠ b.sortRank)
    : a.sortCompare b = compare a.sortRank b.sortRank := by
  cases a <;> cases b <;> first | exact absurd rfl h | rfl

theorem sortRank_le_of_isLE (h : (a.sortCompare b).isLE = true) : a.sortRank ≤ b.sortRank := by
  by_cases hrank : a.sortRank = b.sortRank
  . exact Nat.le_of_eq hrank
  . rw [sortCompare_of_rank_ne hrank, Std.isLE_compare] at h
    exact h

theorem isLE_of_sortRank_lt (h : a.sortRank < b.sortRank) : (a.sortCompare b).isLE = true := by
  rw [sortCompare_of_rank_ne (Nat.ne_of_lt h), Std.isLE_compare]
  exact Nat.le_of_lt h

theorem isNumber_congr (h : a.sortRank = b.sortRank) : a.isNumber = b.isNumber := by
  have hrank : ∀ v : Value, v.isNumber = (v.sortRank == 1) := by
    intro v
    cases v <;> rfl
  rw [hrank, hrank, h]

theorem exists_array_of_sortRank_eq {items : List Value} (h : (array items).sortRank = b.sortRank)
    : ∃ items', b = array items' := by
  cases b with
  | array items' => exact ⟨items', rfl⟩
  | _ => cases h

/-- The values of the kinds that have neither numbers nor lists. -/
def isPlain : Value → Bool
  | int _ | float _ | array _ => false
  | _ => true

theorem isPlain_congr (h : a.sortRank = b.sortRank) : a.isPlain = b.isPlain := by
  have hrank : ∀ v : Value, v.isPlain = (v.sortRank != 1 && v.sortRank != 5) := by
    intro v
    cases v <;> rfl
  rw [hrank, hrank, h]

theorem isPlain_or_isNumber_or_array (v : Value)
    : v.isPlain = true ∨ v.isNumber = true ∨ ∃ items, v = array items := by
  cases v with
  | int _ | float _ => exact .inr (.inl rfl)
  | array items => exact .inr (.inr ⟨items, rfl⟩)
  | _ => exact .inl rfl

section Plain

/-- The day of a day or a timestamp, and the place of a truth value. -/
def dayPlace : Value → Int
  | bool b => b.toNat
  | day d => d.number
  | timestamp t => t.day.number
  | _ => 0

/-- The second of a timestamp, with room for the day itself before the first one. -/
def secondPlace : Value → Nat
  | timestamp t => t.second + 1
  | _ => 0

/-- The order within a kind that has neither numbers nor lists. -/
def plainCompare : Value → Value → Ordering :=
  compareLex (compareOn dayPlace) (compareLex (compareOn secondPlace) (compareOn caption?))

instance : Std.TransCmp plainCompare :=
  inferInstanceAs (Std.TransCmp
    (compareLex (compareOn dayPlace) (compareLex (compareOn secondPlace) (compareOn caption?))))

theorem compare_epochSeconds (t t' : Timestamp)
    : compare t.epochSeconds t'.epochSeconds
        =
      (compare t.day.number t'.day.number).then (compare (t.second + 1) (t'.second + 1)) := by
  have hsecond := t.second_lt
  have hsecond' := t'.second_lt
  unfold Timestamp.epochSeconds
  cases hday : compare t.day.number t'.day.number with
  | lt =>
    have hlt := Int.compare_eq_lt.mp hday
    exact Int.compare_eq_lt.mpr (by omega)
  | gt =>
    have hgt := Int.compare_eq_gt.mp hday
    exact Int.compare_eq_gt.mpr (by omega)
  | eq =>
    have heq := Int.compare_eq_eq.mp hday
    rw [heq, Ordering.eq_then, Int.compare_eq_ite_lt, Nat.compare_eq_ite_lt]
    grind

theorem sortCompare_of_isPlain (hplain : a.isPlain = true) (hrank : a.sortRank = b.sortRank)
    : a.sortCompare b = plainCompare a b := by
  cases a with
  | int _ | float _ | array _ => cases hplain
  | null =>
    cases b with
    | null => rfl
    | _ => cases hrank
  | string s =>
    cases b with
    | string t => rfl
    | _ => cases hrank
  | json document =>
    cases b with
    | json document' => rfl
    | _ => cases hrank
  | bool x =>
    cases b with
    | bool y => cases x <;> cases y <;> rfl
    | _ => cases hrank
  | day d =>
    cases b with
    | day d' =>
      change compare d.number d'.number = (compare d.number d'.number).then .eq
      rw [Ordering.then_eq]
    | timestamp t =>
      have hbefore : compare 0 (t.second + 1) = .lt := Nat.compare_eq_lt.mpr (Nat.succ_pos _)
      change (compare d.number t.day.number).then .lt
        = (compare d.number t.day.number).then ((compare 0 (t.second + 1)).then .eq)
      rw [hbefore]
      rfl
    | _ => cases hrank
  | timestamp t =>
    cases b with
    | day d =>
      have hafter : compare (t.second + 1) 0 = .gt := Nat.compare_eq_gt.mpr (Nat.succ_pos _)
      change (compare t.day.number d.number).then .gt
        = (compare t.day.number d.number).then ((compare (t.second + 1) 0).then .eq)
      rw [hafter]
      rfl
    | timestamp t' =>
      change compare t.epochSeconds t'.epochSeconds
        = (compare t.day.number t'.day.number).then
            ((compare (t.second + 1) (t'.second + 1)).then .eq)
      rw [compare_epochSeconds, Ordering.then_eq]
    | _ => cases hrank

end Plain

section Numbers

/-- The place of a number once it is a float. -/
def roundedPlace : Value → Int
  | int i => (Binary64.ofInt i.toInt).place
  | float x => x.place
  | _ => 0

theorem sortCompare_int_int (i j : Int64) : (int i).sortCompare (int j) = compare i.toInt j.toInt := rfl

/-- Compared with a float, an integer is what it is rounded to. -/
theorem sortCompare_of_numbers (ha : a.isNumber = true) (hb : b.isNumber = true)
    (hfloat : a.int? = none ∨ b.int? = none)
    : a.sortCompare b = compare a.roundedPlace b.roundedPlace := by
  cases a with
  | int i =>
    cases b with
    | int j => simp [int?] at hfloat
    | float y => exact Binary64.sortCompare_eq _ y
    | _ => cases hb
  | float x =>
    cases b with
    | int j => exact Binary64.sortCompare_eq x _
    | float y => exact Binary64.sortCompare_eq x y
    | _ => cases hb
  | _ => cases ha

theorem exists_int_of_int?_ne_none (h : a.int? ≠ none) : ∃ i, a = int i := by
  cases a with
  | int i => exact ⟨i, rfl⟩
  | _ => exact absurd rfl h

theorem roundedPlace_le_of_isLE (ha : a.isNumber = true) (hb : b.isNumber = true)
    (h : (a.sortCompare b).isLE = true) : a.roundedPlace ≤ b.roundedPlace := by
  by_cases hfloat : a.int? = none ∨ b.int? = none
  . rw [sortCompare_of_numbers ha hb hfloat, Std.isLE_compare] at h
    exact h
  . obtain ⟨i, rfl⟩ := exists_int_of_int?_ne_none (mt .inl hfloat)
    obtain ⟨j, rfl⟩ := exists_int_of_int?_ne_none (mt .inr hfloat)
    rw [sortCompare_int_int, Std.isLE_compare] at h
    exact Binary64.place_ofInt_mono h

end Numbers

theorem sortCompare_swap_of_numbers (ha : a.isNumber = true) (hb : b.isNumber = true)
    : a.sortCompare b = (b.sortCompare a).swap := by
  by_cases hfloat : a.int? = none ∨ b.int? = none
  . rw [sortCompare_of_numbers ha hb hfloat, sortCompare_of_numbers hb ha hfloat.symm]
    exact Std.OrientedOrd.eq_swap
  . obtain ⟨i, rfl⟩ := exists_int_of_int?_ne_none (mt .inl hfloat)
    obtain ⟨j, rfl⟩ := exists_int_of_int?_ne_none (mt .inr hfloat)
    rw [sortCompare_int_int, sortCompare_int_int]
    exact Std.OrientedOrd.eq_swap

mutual

/-- The other way round the order is the reverse. -/
theorem sortCompare_swap (a b : Value) : a.sortCompare b = (b.sortCompare a).swap := by
  by_cases hrank : a.sortRank = b.sortRank
  . rcases a.isPlain_or_isNumber_or_array with hplain | hnumber | ⟨xs, rfl⟩
    . rw [sortCompare_of_isPlain hplain hrank,
        sortCompare_of_isPlain (isPlain_congr hrank ▸ hplain) hrank.symm]
      exact Std.OrientedCmp.eq_swap
    . exact sortCompare_swap_of_numbers hnumber (isNumber_congr hrank ▸ hnumber)
    . obtain ⟨ys, rfl⟩ := exists_array_of_sortRank_eq hrank
      exact sortCompareItems_swap xs ys
  . rw [sortCompare_of_rank_ne hrank, sortCompare_of_rank_ne (Ne.symm hrank)]
    exact Std.OrientedOrd.eq_swap

theorem sortCompareItems_swap (xs ys : List Value)
    : sortCompareItems xs ys = (sortCompareItems ys xs).swap := by
  cases xs with
  | nil => cases ys <;> rfl
  | cons x xs =>
    cases ys with
    | nil => rfl
    | cons y ys =>
      unfold sortCompareItems
      rw [sortCompare_swap x y, sortCompareItems_swap xs ys, Ordering.swap_then]

end

/-- The first and the last value are integers in the wrong order, and the float between them equals both
of them once they are rounded. -/
def Blurred (a b c : Value) : Prop :=
  ∃ i x j, a = int i ∧ b = float x ∧ c = int j ∧ j.toInt < i.toInt
    ∧
  (Binary64.ofInt i.toInt).same x = true ∧ (Binary64.ofInt j.toInt).same x = true

theorem Blurred.out_of_order (h : Blurred a b c)
    : (a.sortCompare b).isLE = true ∧ (b.sortCompare c).isLE = true ∧ a.sortCompare c = .gt := by
  obtain ⟨i, x, j, rfl, rfl, rfl, hlt, hsame, hsame'⟩ := h
  have hplace := (Binary64.same_iff.mp hsame).2.2
  have hplace' := (Binary64.same_iff.mp hsame').2.2
  refine ⟨?_, ?_, Int.compare_eq_gt.mpr hlt⟩
  . rw [sortCompare_of_numbers rfl rfl (.inr rfl), Std.isLE_compare]
    exact Int.le_of_eq hplace
  . rw [sortCompare_of_numbers rfl rfl (.inl rfl), Std.isLE_compare]
    exact Int.le_of_eq hplace'.symm

-- Rounding keeps the order, so the places are in the order of the values unless the first and the last
-- value are compared exactly and the one between them is not.
theorem isLE_or_blurred_of_numbers (ha : a.isNumber = true) (hb : b.isNumber = true)
    (hc : c.isNumber = true) (hab : (a.sortCompare b).isLE = true)
    (hbc : (b.sortCompare c).isLE = true) : (a.sortCompare c).isLE = true ∨ Blurred a b c := by
  have hplace := roundedPlace_le_of_isLE ha hb hab
  have hplace' := roundedPlace_le_of_isLE hb hc hbc
  by_cases hfloat : a.int? = none ∨ c.int? = none
  . rw [sortCompare_of_numbers ha hc hfloat, Std.isLE_compare]
    exact .inl (Int.le_trans hplace hplace')
  obtain ⟨i, rfl⟩ := exists_int_of_int?_ne_none (mt .inl hfloat)
  obtain ⟨j, rfl⟩ := exists_int_of_int?_ne_none (mt .inr hfloat)
  rw [sortCompare_int_int, Std.isLE_compare]
  cases b with
  | int k =>
    rw [sortCompare_int_int, Std.isLE_compare] at hab hbc
    exact .inl (Int.le_trans hab hbc)
  | float x =>
    rcases Int.lt_or_le j.toInt i.toInt with hlt | hle
    . change (Binary64.ofInt i.toInt).place ≤ x.place at hplace
      change x.place ≤ (Binary64.ofInt j.toInt).place at hplace'
      have hmono := Binary64.place_ofInt_mono (Int.le_of_lt hlt)
      exact .inr ⟨i, x, j, rfl, rfl, rfl, hlt, Binary64.same_ofInt_of_place_eq (by omega),
        Binary64.same_ofInt_of_place_eq (by omega)⟩
    . exact .inl hle
  | _ => cases hb

theorem isLE_or_blurred_or_arrays (hab : (a.sortCompare b).isLE = true)
    (hbc : (b.sortCompare c).isLE = true)
    : ((a.sortCompare c).isLE = true ∨ Blurred a b c)
        ∨
      ∃ xs ys zs, a = array xs ∧ b = array ys ∧ c = array zs := by
  have hle := sortRank_le_of_isLE hab
  have hle' := sortRank_le_of_isLE hbc
  by_cases hlt : a.sortRank < c.sortRank
  . exact .inl (.inl (isLE_of_sortRank_lt hlt))
  have hrank : a.sortRank = b.sortRank := by omega
  have hrank' : b.sortRank = c.sortRank := by omega
  rcases a.isPlain_or_isNumber_or_array with hplain | hnumber | ⟨xs, rfl⟩
  . rw [sortCompare_of_isPlain hplain hrank] at hab
    rw [sortCompare_of_isPlain (isPlain_congr hrank ▸ hplain) hrank'] at hbc
    rw [sortCompare_of_isPlain hplain (hrank.trans hrank')]
    exact .inl (.inl (Std.TransCmp.isLE_trans hab hbc))
  . have hnumber' := isNumber_congr hrank ▸ hnumber
    have hnumber'' := isNumber_congr hrank' ▸ hnumber'
    exact .inl (isLE_or_blurred_of_numbers hnumber hnumber' hnumber'' hab hbc)
  . obtain ⟨ys, rfl⟩ := exists_array_of_sortRank_eq hrank
    obtain ⟨zs, rfl⟩ := exists_array_of_sortRank_eq hrank'
    exact .inr ⟨xs, ys, zs, rfl, rfl, rfl⟩

section Composite

variable {numbers : Value → Prop}

mutual

/-- All numbers of a value, and of the values in it, are among the given ones. -/
def MadeOf (numbers : Value → Prop) : Value → Prop
  | int i => numbers (int i)
  | float x => numbers (float x)
  | array items => ItemsMadeOf numbers items
  | _ => True

def ItemsMadeOf (numbers : Value → Prop) : List Value → Prop
  | [] => True
  | item :: items => MadeOf numbers item ∧ ItemsMadeOf numbers items

end

/-- There are no three numbers of which the second blurs the other two. -/
def KeptApart (numbers : Value → Prop) : Prop :=
  ∀ a b c, numbers a → numbers b → numbers c → ¬Blurred a b c

theorem KeptApart.not_blurred (h : KeptApart numbers) (ha : a.MadeOf numbers) (hb : b.MadeOf numbers)
    (hc : c.MadeOf numbers) : ¬Blurred a b c := by
  intro hblurred
  have ⟨i, x, j, hi, hx, hj, _⟩ := hblurred
  subst hi hx hj
  exact h _ _ _ ha hb hc hblurred

theorem ItemsMadeOf.forall {items : List Value} (h : ItemsMadeOf numbers items)
    : ∀ v ∈ items, MadeOf numbers v := by
  induction items with
  | nil => simp
  | cons item items ih =>
    intro v hv
    rcases List.mem_cons.mp hv with rfl | hv
    . exact h.1
    . exact ih h.2 v hv

theorem sortCompareItems_map_val {p : Value → Prop} (xs ys : List (Subtype p))
    : sortCompareItems (xs.map Subtype.val) (ys.map Subtype.val)
        =
      List.compareLex (fun a b => a.val.sortCompare b.val) xs ys := by
  induction xs generalizing ys with
  | nil => cases ys <;> rfl
  | cons x xs ih =>
    cases ys with
    | nil => rfl
    | cons y ys =>
      simp only [List.map_cons, sortCompareItems, ih]
      cases h : x.val.sortCompare y.val <;> simp [List.compareLex, h]

theorem sortCompareItems_isLE_trans {p : Value → Prop}
    [Std.TransCmp fun a b : Subtype p => a.val.sortCompare b.val] {xs ys zs : List Value}
    (hxs : ∀ v ∈ xs, p v) (hys : ∀ v ∈ ys, p v) (hzs : ∀ v ∈ zs, p v)
    (hxy : (sortCompareItems xs ys).isLE = true) (hyz : (sortCompareItems ys zs).isLE = true)
    : (sortCompareItems xs zs).isLE = true := by
  lift xs to List (Subtype p) using hxs
  lift ys to List (Subtype p) using hys
  lift zs to List (Subtype p) using hzs
  rw [sortCompareItems_map_val] at hxy hyz ⊢
  exact Std.TransCmp.isLE_trans hxy hyz

theorem of_mem_array {items : List Value} {n : Nat} (hmade : (array items).MadeOf numbers)
    (hsize : sizeOf (array items) < n + 1) : ∀ v ∈ items, v.MadeOf numbers ∧ sizeOf v < n := by
  intro v hv
  have hlt := List.sizeOf_lt_of_mem hv
  simp only [array.sizeOf_spec] at hsize
  exact ⟨ItemsMadeOf.forall hmade v hv, by omega⟩

-- The induction is on the size, as the items of a list are compared with those of two other lists.
theorem transCmp_of_keptApart (hapart : KeptApart numbers) (n : Nat)
    : Std.TransCmp fun a b : { v : Value // v.MadeOf numbers ∧ sizeOf v < n } =>
        a.val.sortCompare b.val := by
  induction n with
  | zero =>
    refine { eq_swap := sortCompare_swap _ _, isLE_trans := ?_ }
    intro a
    exact absurd a.property.2 (Nat.not_lt_zero _)
  | succ n ih =>
    refine { eq_swap := sortCompare_swap _ _, isLE_trans := ?_ }
    rintro ⟨a, ha, hsize⟩ ⟨b, hb, hsize'⟩ ⟨c, hc, hsize''⟩ hab hbc
    rcases isLE_or_blurred_or_arrays hab hbc with (hle | hblurred) | ⟨xs, ys, zs, rfl, rfl, rfl⟩
    . exact hle
    . exact absurd hblurred (hapart.not_blurred ha hb hc)
    . exact sortCompareItems_isLE_trans (of_mem_array ha hsize) (of_mem_array hb hsize')
        (of_mem_array hc hsize'') hab hbc

end Composite

/-- The order of two values is always the reverse of the order the other way round. Three values that are
not all lists are out of order if and only if the second one is a float that blurs two integers. The
order of all values that are made up of some numbers, lists included, is transitive if and only if there
are no such three among the numbers. -/
theorem sortCompare_trans_iff (numbers : Value → Prop)
    : (∀ a b : Value, a.sortCompare b = (b.sortCompare a).swap)
        ∧
      (∀ a b c : Value, a.array? = none ∨ b.array? = none ∨ c.array? = none →
        ((a.sortCompare b).isLE = true ∧ (b.sortCompare c).isLE = true ∧ a.sortCompare c = .gt
          ↔
        Blurred a b c))
        ∧
      ((∀ a b c : Value, a.MadeOf numbers → b.MadeOf numbers → c.MadeOf numbers →
          (a.sortCompare b).isLE = true → (b.sortCompare c).isLE = true →
          (a.sortCompare c).isLE = true)
        ↔
      KeptApart numbers) := by
  refine ⟨sortCompare_swap, ?_, ?_⟩
  . intro a b c hscalar
    refine ⟨?_, Blurred.out_of_order⟩
    rintro ⟨hab, hbc, hac⟩
    rcases isLE_or_blurred_or_arrays hab hbc with (hle | hblurred) | ⟨xs, ys, zs, rfl, rfl, rfl⟩
    . rw [hac] at hle
      cases hle
    . exact hblurred
    . rcases hscalar with h | h | h <;> cases h
  . constructor
    . intro htrans a b c ha hb hc hblurred
      obtain ⟨hab, hbc, hac⟩ := hblurred.out_of_order
      obtain ⟨i, x, j, rfl, rfl, rfl, _⟩ := hblurred
      have hle := htrans (int i) (float x) (int j) ha hb hc hab hbc
      rw [hac] at hle
      cases hle
    . intro hapart a b c ha hb hc
      have horder := transCmp_of_keptApart hapart (sizeOf a + sizeOf b + sizeOf c + 1)
      exact horder.isLE_trans (a := ⟨a, ha, by omega⟩) (b := ⟨b, hb, by omega⟩)
        (c := ⟨c, hc, by omega⟩)

/-- The integers of up to 53 bits, and all floats. -/
def Exact (v : Value) : Prop :=
  ∀ i, v = int i → i.toInt.natAbs ≤ 2 ^ 53

theorem keptApart_exact : KeptApart Exact := by
  rintro _ _ _ ha _ hc ⟨i, x, j, rfl, rfl, rfl, hlt, hsame, hsame'⟩
  have hplace := (Binary64.same_iff.mp hsame).2.2
  have hplace' := (Binary64.same_iff.mp hsame').2.2
  have hplaces := Binary64.place_ofInt_lt hlt (hc j rfl) (ha i rfl)
  omega

theorem sortCompare_trans_of_exact
    : (∀ a b : Value, a.sortCompare b = (b.sortCompare a).swap)
        ∧
      ∀ a b c : Value, a.MadeOf Exact → b.MadeOf Exact → c.MadeOf Exact →
        (a.sortCompare b).isLE = true → (b.sortCompare c).isLE = true →
        (a.sortCompare c).isLE = true := by
  obtain ⟨hswap, _, htrans⟩ := sortCompare_trans_iff Exact
  exact ⟨hswap, htrans.mpr keptApart_exact⟩

-- One more than `2 ^ 53` is rounded down.
theorem sortCompare_not_trans
    : ((array [int 9007199254740993]).sortCompare (array [float (.ofInt 9007199254740992)])).isLE = true
        ∧
      ((array [float (.ofInt 9007199254740992)]).sortCompare (array [int 9007199254740992])).isLE = true
        ∧
      (array [int 9007199254740993]).sortCompare (array [int 9007199254740992]) = .gt :=
  ⟨rfl, rfl, rfl⟩

end Value

end ObjectStore
