import ObjectStore.Filter.Compile
import ObjectStore.Proofs.Except
import ObjectStore.Proofs.Filter.Grammar

/-!
This module proves what becomes of a condition when its names and arguments are looked up. Every comparison
becomes a test on its own, wherever it stands, and the filter says about a record what the condition says
for the answers of the tests.
-/

namespace ObjectStore

/-- The operators that compare with the argument itself. -/
def Operator.takesScalar : Operator → Bool
  | eq | ne | gt | lt | ge | le => true
  | startsWith | contains | isIn | notIn => false

theorem Field.bindOperand_of_takesScalar {op : Operator} (h : op.takesScalar = true) (f : Field)
    (v : Value) : f.bindOperand op v = f.bindScalar v := by
  cases op with
  | eq | ne | gt | lt | ge | le => rfl
  | startsWith | contains | isIn | notIn => cases h

namespace Condition

/-- The test that a comparison becomes, which is given by the name of its field, its operator and the number
of its placeholder. -/
structure Binds (scope : ObjectType) (args : List Value) (x : (String × Operator) × Nat) (t : Test)
    : Prop where
  field : Field.resolve scope x.1.1 = .ok t.field
  op : t.op = x.1.2
  operand : ∃ arg, args[x.2]? = some arg ∧ t.field.bindOperand x.1.2 arg = .ok t.operand

variable {scope : ObjectType} {args : List Value}

theorem Binds.unique {x : (String × Operator) × Nat} {t t' : Test} (h : Binds scope args x t)
    (h' : Binds scope args x t') : t = t' := by
  obtain ⟨f, op, operand⟩ := t
  obtain ⟨f', op', operand'⟩ := t'
  have hfield : f = f' := Except.ok.inj (h.field.symm.trans h'.field)
  have hop : op = op' := h.op.trans h'.op.symm
  obtain ⟨arg, harg, hbind⟩ := h.operand
  obtain ⟨arg', harg', hbind'⟩ := h'.operand
  cases Option.some.inj (harg.symm.trans harg')
  subst hfield hop
  cases Except.ok.inj (hbind.symm.trans hbind')
  rfl

theorem locate_eq_ok {α : Type} {span : Span} {x : Except CompileFault α} {a : α}
    : locate span x = .ok a ↔ x = .ok a :=
  mapError_eq_ok

theorem compileComparison_eq_ok {field : Spanned String} {op : Operator} {placeholder : Spanned Nat}
    {e : Expression}
    : compileComparison scope args field op placeholder = .ok e
        ↔
      ∃ t, Binds scope args ((field.value, op), placeholder.value) t ∧ e = .test t := by
  unfold compileComparison
  rw [bind_eq_ok]
  constructor
  . rintro ⟨f, hf, h⟩
    split at h
    . cases h
    . next arg harg =>
      obtain ⟨operand, hoperand, h⟩ := bind_eq_ok.mp h
      cases h
      exact ⟨⟨f, op, operand⟩, ⟨locate_eq_ok.mp hf, rfl, arg, harg, locate_eq_ok.mp hoperand⟩, rfl⟩
  . rintro ⟨t, ⟨hfield, rfl, arg, harg, hoperand⟩, rfl⟩
    refine ⟨t.field, locate_eq_ok.mpr hfield, ?_⟩
    dsimp only at harg hoperand
    rw [harg]
    exact bind_eq_ok.mpr ⟨t.operand, locate_eq_ok.mpr hoperand, rfl⟩

mutual

/-- A condition becomes a filter if and only if each of its comparisons becomes a test. -/
theorem compiles_iff (c : Condition)
    : (∃ e, c.compile scope args = .ok e) ↔ ∀ x ∈ c.comparisons, ∃ t, Binds scope args x t := by
  cases c with
  | comparison field op placeholder =>
    simp only [compile, comparisons, compileComparison_eq_ok, List.forall_mem_singleton]
    constructor
    . rintro ⟨_, t, ht, -⟩
      exact ⟨t, ht⟩
    . rintro ⟨t, ht⟩
      exact ⟨_, t, ht, rfl⟩
  | all parts | any parts =>
    unfold comparisons
    rw [← compileParts_iff parts]
    simp only [compile, bind_eq_ok]
    constructor
    . rintro ⟨_, es, hes, -⟩
      exact ⟨es, hes⟩
    . rintro ⟨es, hes⟩
      exact ⟨_, es, hes, rfl⟩

theorem compileParts_iff (parts : List Condition)
    : (∃ es, compileParts scope args parts = .ok es)
        ↔
      ∀ x ∈ partComparisons parts, ∃ t, Binds scope args x t := by
  cases parts with
  | nil => simp [compileParts, partComparisons]
  | cons part parts =>
    unfold partComparisons
    rw [List.forall_mem_append, ← compiles_iff part, ← compileParts_iff parts]
    simp only [compileParts, bind_eq_ok]
    constructor
    . rintro ⟨_, e, he, es, hes, -⟩
      exact ⟨⟨e, he⟩, es, hes⟩
    . rintro ⟨⟨e, he⟩, es, hes⟩
      exact ⟨_, e, he, es, hes, rfl⟩

end

mutual

/-- The filter holds for a record if the condition holds for the answers of its tests. -/
theorem evaluate_of_compile {c : Condition} {e : Expression} {r : Record} {assign : Nat → Bool}
    (h : c.compile scope args = .ok e)
    (hassign : ∀ x ∈ c.comparisons, ∀ t, Binds scope args x t → t.evaluate r = assign x.2)
    : e.evaluate r = c.holds assign := by
  cases c with
  | comparison field op placeholder =>
    obtain ⟨t, ht, rfl⟩ := compileComparison_eq_ok.mp h
    exact hassign _ (List.mem_singleton_self _) t ht
  | all parts =>
    obtain ⟨es, hes, h⟩ := bind_eq_ok.mp h
    cases h
    exact (evaluate_of_compileParts hes hassign).1
  | any parts =>
    obtain ⟨es, hes, h⟩ := bind_eq_ok.mp h
    cases h
    exact (evaluate_of_compileParts hes hassign).2

theorem evaluate_of_compileParts {parts : List Condition} {es : List Expression} {r : Record}
    {assign : Nat → Bool} (h : compileParts scope args parts = .ok es)
    (hassign : ∀ x ∈ partComparisons parts, ∀ t, Binds scope args x t → t.evaluate r = assign x.2)
    : Expression.evaluateAll r es = allHold assign parts
        ∧
      Expression.evaluateAny r es = anyHolds assign parts := by
  cases parts with
  | nil =>
    cases h
    exact ⟨rfl, rfl⟩
  | cons part parts =>
    obtain ⟨e, he, h⟩ := bind_eq_ok.mp h
    obtain ⟨es, hes, h⟩ := bind_eq_ok.mp h
    cases h
    unfold partComparisons at hassign
    rw [List.forall_mem_append] at hassign
    have hpart := evaluate_of_compile he hassign.1
    obtain ⟨hall, hany⟩ := evaluate_of_compileParts hes hassign.2
    constructor
    . rw [Expression.evaluateAll, allHold, hpart, hall]
    . rw [Expression.evaluateAny, anyHolds, hpart, hany]

end

/-- A condition that is one comparison with the first argument. -/
abbrev Compares (c : Condition) (name : String) (op : Operator) : Prop :=
  c.Reads 0 [(name, op)] fun assign => assign 0

theorem Compares.compiles_iff {c : Condition} {name : String} {op : Operator} (hc : c.Compares name op)
    : (∃ e, c.compile scope args = .ok e) ↔ ∃ t, Binds scope args ((name, op), 0) t := by
  rw [Condition.compiles_iff, hc.comparisons]
  exact List.forall_mem_singleton

theorem Compares.evaluate {c : Condition} {name : String} {op : Operator} (hc : c.Compares name op)
    {e : Expression} (h : c.compile scope args = .ok e) {t : Test}
    (ht : Binds scope args ((name, op), 0) t) (r : Record) : e.evaluate r = t.evaluate r := by
  have hassign : ∀ x ∈ c.comparisons, ∀ t', Binds scope args x t'
      → t'.evaluate r = (fun _ : Nat => t.evaluate r) x.2 := by
    intro x hx t' ht'
    rw [hc.comparisons] at hx
    cases List.mem_singleton.mp hx
    rw [ht'.unique ht]
  calc
    e.evaluate r = c.holds fun _ => t.evaluate r := evaluate_of_compile h hassign
    _ = t.evaluate r := hc.holds _

end Condition

end ObjectStore
