import ObjectStore.Proofs.Filter.Binding
import ObjectStore.Proofs.Schema.Operands
import ObjectStore.Proofs.Value.Comparison

/-!
This module proves that filters on a field of an ordered type divide the records: whatever the argument and
whatever is stored, exactly one of `<`, `=` and `>` lets a record through, and the other comparisons are
made up of these.
-/

namespace ObjectStore

theorem Operator.Trichotomous.congr {holds holds' : Operator → Bool} (h : Trichotomous holds)
    (hsame : ∀ op, op.takesScalar = true → holds op = holds' op) : Trichotomous holds' := by
  have hlt := hsame .lt rfl
  have heq := hsame .eq rfl
  have hgt := hsame .gt rfl
  constructor
  . rw [← h.one]
    simp only [List.countP_cons, List.countP_nil, hlt, heq, hgt]
  . rw [← hsame .le rfl, h.le, hlt, heq]
  . rw [← hsame .ge rfl, h.ge, hgt, heq]
  . rw [← hsame .ne rfl, h.ne, hlt, hgt]

theorem Field.trichotomous_of_bindScalar {f : Field} (hordered : f.type.isOrdered = true)
    {v operand : Value} (h : f.bindScalar v = .ok operand) (r : Record)
    : Operator.Trichotomous fun op => (Test.mk f op operand).evaluate r := by
  obtain ⟨o, ho⟩ := AttributeType.Bounds.exists_compare? hordered (f.holds_read r)
    (bounds_of_bindScalar h)
  exact Operator.trichotomous_apply ho

namespace Condition

variable {scope : ObjectType} {args : List Value} {name : String} {f : Field}

/-- The argument of one comparison of a field is the operand of all others. -/
theorem binds_of_takesScalar {op : Operator} (hscalar : op.takesScalar = true) {t : Test}
    (ht : Binds scope args ((name, .eq), 0) t)
    : Binds scope args ((name, op), 0) ⟨t.field, op, t.operand⟩ := by
  obtain ⟨arg, harg, hoperand⟩ := ht.operand
  rw [Field.bindOperand_of_takesScalar rfl] at hoperand
  refine ⟨ht.field, rfl, arg, harg, ?_⟩
  rw [Field.bindOperand_of_takesScalar hscalar]
  exact hoperand

/-- If the filter that a field of an ordered type equals an argument can be compiled, so can all other
comparisons with the argument, and on every record exactly one of `<`, `=` and `>` holds. -/
theorem trichotomous_of_compile (hresolve : Field.resolve scope name = .ok f)
    (hordered : f.type.isOrdered = true) {filters : Operator → Condition}
    (hfilters : ∀ op, (filters op).Compares name op) {e : Expression}
    (hcompile : (filters .eq).compile scope args = .ok e)
    : ∃ compiled : Operator → Expression,
        (∀ op, op.takesScalar = true → (filters op).compile scope args = .ok (compiled op))
          ∧
        ∀ r, Operator.Trichotomous fun op => (compiled op).evaluate r := by
  obtain ⟨t, ht⟩ := (hfilters .eq).compiles_iff.mp ⟨e, hcompile⟩
  obtain ⟨arg, -, hoperand⟩ := ht.operand
  rw [Field.bindOperand_of_takesScalar rfl] at hoperand
  have hall : ∀ op, ∃ e', op.takesScalar = true → (filters op).compile scope args = .ok e'
      ∧ ∀ r, e'.evaluate r = (Test.mk t.field op t.operand).evaluate r := by
    intro op
    cases hscalar : op.takesScalar with
    | false => exact ⟨.always, nofun⟩
    | true =>
      have hbinds := binds_of_takesScalar hscalar ht
      obtain ⟨e', he'⟩ := (hfilters op).compiles_iff.mpr ⟨_, hbinds⟩
      exact ⟨e', fun _ => ⟨he', (hfilters op).evaluate he' hbinds⟩⟩
  obtain ⟨compiled, hcompiled⟩ := Classical.axiomOfChoice hall
  refine ⟨compiled, fun op hscalar => (hcompiled op hscalar).1, ?_⟩
  intro r
  have hfield : t.field = f := Except.ok.inj (ht.field.symm.trans hresolve)
  have htrichotomous := Field.trichotomous_of_bindScalar (hfield ▸ hordered) hoperand r
  exact htrichotomous.congr fun op hscalar => ((hcompiled op hscalar).2 r).symm

def boxType : ObjectType :=
  (ObjectType.ofName "box").addAttribute { name := "units", type := .integer }

def unitsCondition (op : Operator) : Condition :=
  .comparison ⟨"units", .none⟩ ⟨op, .none⟩ ⟨0, .none⟩

-- No integer is the argument, so the operand is a float.
theorem trichotomous_of_compile_of_half
    : ∃ compiled : Operator → Expression,
        (∀ op, op.takesScalar = true
          → (unitsCondition op).compile boxType [.string "99.5"] = .ok (compiled op))
          ∧
        ∀ r, Operator.Trichotomous fun op => (compiled op).evaluate r := by
  have hresolve : Field.resolve boxType "units" = .ok (.attr "units" .integer) := rfl
  have hreads : ∀ op, (unitsCondition op).Compares "units" op := fun op => ⟨rfl, fun _ => rfl⟩
  have hcompile : ∃ e, (unitsCondition .eq).compile boxType [.string "99.5"] = .ok e := ⟨_, rfl⟩
  obtain ⟨e, he⟩ := hcompile
  exact trichotomous_of_compile hresolve rfl hreads he

end Condition

end ObjectStore
