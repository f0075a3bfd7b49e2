import ObjectStore.Filter.Operator
import ObjectStore.Proofs.Json

/-!
This module proves the laws of comparing two values. The order and equality of two values do not depend on
which of them comes first, every value equals itself unless it has something in it that is no number, and
the operators go together as their names say.
-/

namespace ObjectStore

namespace Value

section Scalars

mutual

/-- Holds if one of the given scalars is the value itself or is found in it. -/
def hasScalar (p : Value → Bool) : Value → Bool
  | array items => itemsHaveScalar p items
  | v => p v

def itemsHaveScalar (p : Value → Bool) : List Value → Bool
  | [] => false
  | item :: items => item.hasScalar p || itemsHaveScalar p items

end

/-- Holds for a float that is no number. -/
def isNaN : Value → Bool
  | float x => x.isNaN
  | _ => false

def hasNaN (v : Value) : Bool :=
  v.hasScalar isNaN

end Scalars

section Reverse

theorem compareDays?_swap (a b : Value) : compareDays? a b = (compareDays? b a).map Ordering.swap := by
  unfold compareDays?
  cases a.day? with
  | none => cases b.day? <;> rfl
  | some c =>
    cases b.day? with
    | none => rfl
    | some d => exact congrArg some Std.OrientedOrd.eq_swap

theorem compare?_day (a : Value) (d : Day)
    : a.compare? (day d) = ((day d).compare? a).map Ordering.swap := by
  cases a with
  | null => rfl
  | _ =>
    simp only [compare?]
    exact compareDays?_swap _ _

mutual

/-- The other way round the order is the reverse, and there is none if there is none this way round. -/
theorem compare?_swap (a b : Value) : a.compare? b = (b.compare? a).map Ordering.swap := by
  cases a with
  | null => cases b <;> rfl
  | bool _ | json _ =>
    cases b with
    | day d => exact compare?_day _ d
    | _ => rfl
  | int i =>
    cases b with
    | int j => exact congrArg some Std.OrientedOrd.eq_swap
    | float y => exact Binary64.compare?_swap _ y
    | day d => exact compare?_day _ d
    | _ => rfl
  | float x =>
    cases b with
    | int j => exact Binary64.compare?_swap x _
    | float y => exact Binary64.compare?_swap x y
    | day d => exact compare?_day _ d
    | _ => rfl
  | string s =>
    cases b with
    | string t => exact congrArg some Std.OrientedOrd.eq_swap
    | day d => exact compare?_day _ d
    | _ => rfl
  | day d =>
    cases b with
    | null => rfl
    | _ =>
      simp only [compare?]
      exact compareDays?_swap _ _
  | timestamp t =>
    cases b with
    | timestamp u => exact congrArg some Std.OrientedOrd.eq_swap
    | day d => exact compare?_day _ d
    | _ => rfl
  | array xs =>
    cases b with
    | array ys =>
      unfold compare?
      by_cases hlength : xs.length = ys.length
      . rw [if_pos hlength, if_pos hlength.symm]
        exact compareItems?_swap xs ys
      . rw [if_neg hlength, if_neg (Ne.symm hlength)]
        rfl
    | day d => exact compare?_day _ d
    | _ => rfl

theorem compareItems?_swap (xs ys : List Value)
    : compareItems? xs ys = (compareItems? ys xs).map Ordering.swap := by
  cases xs with
  | nil => cases ys <;> rfl
  | cons x xs =>
    cases ys with
    | nil => rfl
    | cons y ys =>
      unfold compareItems?
      rw [compare?_swap x y, compareItems?_swap xs ys]
      cases y.compare? x with
      | none => rfl
      | some o => cases o <;> rfl

end

mutual

theorem same_comm (a b : Value) : a.same b = b.same a := by
  cases a with
  | null => cases b <;> rfl
  | bool _ | int _ | string _ | day _ | timestamp _ =>
    cases b <;> first | exact BEq.comm | rfl
  | float x =>
    cases b with
    | float y => exact x.same_comm y
    | _ => rfl
  | array xs =>
    cases b with
    | array ys => exact sameItems_comm xs ys
    | _ => rfl
  | json document =>
    cases b with
    | json document' => exact document.same_comm document'
    | _ => rfl

theorem sameItems_comm (xs ys : List Value) : sameItems xs ys = sameItems ys xs := by
  cases xs with
  | nil => cases ys <;> rfl
  | cons x xs =>
    cases ys with
    | nil => rfl
    | cons y ys =>
      unfold sameItems
      rw [same_comm x y, sameItems_comm xs ys]

end

theorem looseEq_json (v : Value) (document : Json)
    : v.looseEq (json document) = v.toJson.same document := by
  cases v <;> rfl

theorem looseEq_comm (a b : Value) : a.looseEq b = b.looseEq a := by
  cases a with
  | json document =>
    rw [looseEq_json]
    exact document.same_comm b.toJson
  | string s =>
    cases b with
    | int _ | float _ => rfl
    | json document =>
      rw [looseEq_json]
      exact Json.same_comm _ document
    | _ => exact same_comm _ _
  | bool x =>
    cases b with
    | int _ | float _ => rfl
    | json document =>
      rw [looseEq_json]
      exact Json.same_comm _ document
    | _ => exact same_comm _ _
  | int _ | float _ =>
    cases b with
    | string _ | bool _ => rfl
    | json document =>
      rw [looseEq_json]
      exact Json.same_comm _ document
    | _ => exact same_comm _ _
  | _ =>
    cases b with
    | json document =>
      rw [looseEq_json]
      exact Json.same_comm _ document
    | _ => exact same_comm _ _

theorem matchesValue_comm (a b : Value) : a.matchesValue b = b.matchesValue a := by
  unfold matchesValue
  rw [compare?_swap a b, looseEq_comm a b]
  cases b.compare? a with
  | none => rfl
  | some o => cases o <;> rfl

end Reverse

section Self

mutual

theorem same_self (v : Value) : v.same v = !v.hasNaN := by
  cases v with
  | null => rfl
  | bool _ | int _ | string _ | day _ | timestamp _ => exact beq_self_eq_true _
  | float x => exact x.same_self
  | array items => exact sameItems_self items
  | json document => exact document.same_self

theorem sameItems_self (items : List Value)
    : sameItems items items = !itemsHaveScalar isNaN items := by
  cases items with
  | nil => rfl
  | cons item items =>
    unfold sameItems itemsHaveScalar
    rw [same_self item, sameItems_self items, Bool.not_or]
    rfl

end

theorem looseEq_self (v : Value) : v.looseEq v = !v.hasNaN := by
  cases v with
  | json document => exact document.same_self
  | _ => exact same_self _

mutual

/-- A value is neither before nor behind itself. -/
theorem compare?_self (v : Value)
    : v.compare? v = none ∨ v.compare? v = some .eq ∧ v.hasNaN = false := by
  cases v with
  | null => exact .inr ⟨rfl, rfl⟩
  | bool _ | json _ => exact .inl rfl
  | int _ | string _ | day _ | timestamp _ => exact .inr ⟨congrArg some Std.ReflOrd.compare_self, rfl⟩
  | float x =>
    cases hnan : x.isNaN with
    | true => exact .inl (Binary64.compare?_eq_none_iff.mpr (.inl hnan))
    | false => exact .inr ⟨Binary64.compare?_self hnan, hnan⟩
  | array items =>
    unfold compare?
    rw [if_pos rfl]
    exact compareItems?_self items

theorem compareItems?_self (items : List Value)
    : compareItems? items items = none
        ∨
      compareItems? items items = some .eq ∧ itemsHaveScalar isNaN items = false := by
  cases items with
  | nil => exact .inr ⟨rfl, rfl⟩
  | cons item items =>
    unfold compareItems? itemsHaveScalar
    obtain hitem | ⟨hitem, hnan⟩ := compare?_self item
    . rw [hitem]
      exact .inl rfl
    . unfold hasNaN at hnan
      rw [hitem, hnan]
      exact compareItems?_self items

end

/-- A value equals itself if and only if there is nothing in it that is no number. -/
theorem matchesValue_self (v : Value) : v.matchesValue v = !v.hasNaN := by
  unfold matchesValue
  obtain hnone | ⟨heq, hnan⟩ := compare?_self v
  . rw [hnone]
    exact looseEq_self v
  . rw [heq, hnan]
    rfl

end Self

end Value

namespace Operator

variable {a b : Value} {o : Ordering}

/-- What the operators say about two values that have an order. -/
structure Trichotomous (holds : Operator → Bool) : Prop where
  one : [lt, eq, gt].countP holds = 1
  le : holds le = (holds lt || holds eq)
  ge : holds ge = (holds gt || holds eq)
  ne : holds ne = (holds lt || holds gt)

theorem trichotomous_apply (h : a.compare? b = some o) : Trichotomous fun op => op.apply a b := by
  have hmatches : a.matchesValue b = (o == .eq) := by
    unfold Value.matchesValue
    rw [h]
  constructor
  . cases o <;> simp [apply, h, hmatches]
  . cases o <;> simp [apply, h, hmatches]
  . cases o <;> simp [apply, h, hmatches]
  . cases o <;> simp [apply, h, hmatches]

theorem countP_apply_le (a b : Value) : [lt, eq, gt].countP (fun op => op.apply a b) ≤ 1 := by
  cases h : a.compare? b with
  | none =>
    have hlt : lt.apply a b = false := by simp [apply, h]
    have hgt : gt.apply a b = false := by simp [apply, h]
    simp only [List.countP_cons, List.countP_nil, hlt, hgt, Bool.false_eq_true, if_false]
    split <;> omega
  | some o => exact Nat.le_of_eq (trichotomous_apply h).one

theorem gt_apply (a b : Value) : gt.apply a b = lt.apply b a := by
  unfold apply
  dsimp only
  rw [Value.compare?_swap a b]
  cases b.compare? a with
  | none => rfl
  | some o => cases o <;> rfl

theorem ge_apply (a b : Value) : ge.apply a b = le.apply b a := by
  unfold apply
  dsimp only
  rw [Value.compare?_swap a b]
  cases b.compare? a with
  | none => rfl
  | some o => cases o <;> rfl

theorem any_of_any_head? {items : List Value} {p : Value → Bool} (h : items.head?.any p = true)
    : items.any p = true := by
  cases items with
  | nil => cases h
  | cons item items => exact List.any_eq_true.mpr ⟨item, List.mem_cons_self, h⟩

theorem any_of_zip_all {items start : List Value} (hlength : start.length ≤ items.length)
    (h : (items.zip start).all (fun (a, b) => a.matchesValue b) = true)
    : start.all (fun w => items.any (·.matchesValue w)) = true := by
  rw [List.all_eq_true] at h ⊢
  intro w hw
  obtain ⟨i, hi, rfl⟩ := List.mem_iff_getElem.mp hw
  have hzip : (items[i], start[i]) ∈ items.zip start := by
    rw [← List.getElem_zip (h := by simp; omega)]
    exact List.getElem_mem _
  exact List.any_eq_true.mpr ⟨items[i], List.getElem_mem _, h _ hzip⟩

theorem contains_of_startsWith (h : startsWith.apply a b = true) : contains.apply a b = true := by
  change startsWithValue a b = true at h
  change containsValue a b = true
  cases a with
  | string text =>
    cases b with
    | string start => exact Text.hasInfix_of_isPrefixOf h
    | _ => cases h
  | array items =>
    cases b with
    | array start =>
      unfold startsWithValue at h
      rw [Bool.and_eq_true, decide_eq_true_eq] at h
      exact any_of_zip_all h.1 h.2
    | _ => exact any_of_any_head? h
  | _ => cases h

/-- For all values: the order, loose equality and equality are the same from both sides, but for the
direction of the order; exactly the values that have something in them that is no number differ from
themselves; and at most one of `<`, `=` and `>` holds. The other operators are as their names say. -/
theorem operators_coherent (a b : Value)
    : a.compare? b = (b.compare? a).map Ordering.swap
        ∧
      a.looseEq b = b.looseEq a
        ∧
      a.matchesValue b = b.matchesValue a
        ∧
      a.matchesValue a = !a.hasNaN
        ∧
      [lt, eq, gt].countP (fun op => op.apply a b) ≤ 1
        ∧
      gt.apply a b = lt.apply b a
        ∧
      ge.apply a b = le.apply b a
        ∧
      (∀ candidates, notIn.apply a (.array candidates) = !isIn.apply a (.array candidates))
        ∧
      (startsWith.apply a b = true → contains.apply a b = true) :=
  ⟨a.compare?_swap b, a.looseEq_comm b, a.matchesValue_comm b, a.matchesValue_self,
    countP_apply_le a b, gt_apply a b, ge_apply a b, fun _ => rfl, contains_of_startsWith⟩

-- The items are no strings, but the first one equals the text of its number.
theorem operators_coherent_of_numerals
    : startsWith.apply (.array [.float (.ofInt 1), .array [.null]]) (.array [.string " 1e0 "]) = true
        ∧
      contains.apply (.array [.float (.ofInt 1), .array [.null]]) (.array [.string " 1e0 "]) = true := by
  have hstart : startsWith.apply (.array [.float (.ofInt 1), .array [.null]])
      (.array [.string " 1e0 "]) = true := by
    decide +kernel
  obtain ⟨_, _, _, _, _, _, _, _, hcontains⟩ :=
    operators_coherent (.array [.float (.ofInt 1), .array [.null]]) (.array [.string " 1e0 "])
  exact ⟨hstart, hcontains hstart⟩

end Operator

end ObjectStore
