import ObjectStore.Proofs.Filter.Binding
import ObjectStore.Proofs.Filter.Parser

/-!
This module proves that a choice among candidates is a chain of comparisons. `f in ?` with a list of arguments
can be compiled whenever `f = ? or .. or f = ?` with the arguments themselves can be, and lets the same
records through; and so do `f not in ?` and `f != ? and .. and f != ?`.
-/

namespace ObjectStore

section Lists

variable {α : Type}

theorem any_range_length (p : α → Bool) (xs : List α)
    : ((List.range xs.length).any fun i => xs[i]?.any p) = xs.any p := by
  induction xs with
  | nil => rfl
  | cons x xs ih =>
    rw [List.length_cons, List.range_succ_eq_map, List.any_cons, List.any_map, List.any_cons, ← ih]
    rfl

theorem all_range_length (p : α → Bool) (xs : List α)
    : ((List.range xs.length).all fun i => xs[i]?.any p) = xs.all p := by
  induction xs with
  | nil => rfl
  | cons x xs ih =>
    rw [List.length_cons, List.range_succ_eq_map, List.all_cons, List.all_map, List.all_cons, ← ih]
    rfl

theorem forall_mem_zipIdx_replicate {p : α × Nat → Prop} {n : Nat} {x : α}
    : (∀ y ∈ (List.replicate n x).zipIdx, p y) ↔ ∀ i < n, p (x, i) := by
  simp only [Prod.forall, List.mem_zipIdx_iff_getElem?, List.getElem?_eq_some_iff,
    List.length_replicate, List.getElem_replicate]
  constructor
  . intro h i hi
    exact h x i ⟨hi, rfl⟩
  . rintro h _ i ⟨hi, rfl⟩
    exact h i hi

end Lists

/-! The texts of chains are derived by the grammar. -/

namespace Grammar

variable (name : String) (op : Operator)

/-- The derivation of `name op ? or .. or name op ?`, with `n` comparisons behind the first. -/
def Disjunction.chain : Nat → Disjunction
  | 0 => .last (.last (.comparison name op))
  | n + 1 => .or (.last (.comparison name op)) (chain n)

/-- The derivation of `name op ? and .. and name op ?`, with `n` comparisons behind the first. -/
def Conjunction.chain : Nat → Conjunction
  | 0 => .last (.comparison name op)
  | n + 1 => .and (.comparison name op) (chain n)

theorem Disjunction.comparisons_chain (n : Nat)
    : (chain name op n).comparisons = List.replicate (n + 1) (name, op) := by
  induction n with
  | zero => rfl
  | succ n ih =>
    rw [chain, comparisons, ih]
    rfl

theorem Conjunction.chain_eq (n : Nat)
    : chain name op n = ofComparisons (name, op) (List.replicate n (name, op)) := by
  induction n with
  | zero => rfl
  | succ n ih => rw [chain, ih, List.replicate_succ, ofComparisons]

theorem Disjunction.holds_chain (assign : Nat → Bool) (n first : Nat)
    : (chain name op n).holds assign first = (List.range' first (n + 1)).any assign := by
  induction n generalizing first with
  | zero => exact (Bool.or_false _).symm
  | succ n ih =>
    rw [chain, holds, ih, List.range'_succ, List.any_cons]
    rfl

end Grammar

/-- What an operator that takes a list of candidates asks of each of them. -/
def Operator.each? : Operator → Option Operator
  | isIn => some eq
  | notIn => some ne
  | _ => none

namespace Condition

open Grammar

/-- A condition that compares one field with each of the first `n` arguments, and holds if one of the
comparisons does. -/
abbrev ComparesSome (c : Condition) (name : String) (op : Operator) (n : Nat) : Prop :=
  c.Reads 0 (List.replicate n (name, op)) fun assign => (List.range n).any assign

/-- A condition that compares one field with each of the first `n` arguments, and holds if all
comparisons do. -/
abbrev ComparesAll (c : Condition) (name : String) (op : Operator) (n : Nat) : Prop :=
  c.Reads 0 (List.replicate n (name, op)) fun assign => (List.range n).all assign

section Texts

variable {source : String} {name : String} {op : Operator}

theorem compares_of_text (h : Spells (lexAnswers source) [.identifier name, .operator op, .placeholder])
    : ∃ c, parse source = .ok c ∧ c.Compares name op := by
  obtain ⟨tokens, htokens, hd⟩ := spells_iff.mp h
  exact parse_of_derivation (d := .last (.last (.comparison name op))) (tokenize_eq_ok.mpr htokens) hd

theorem comparesSome_of_text {n : Nat}
    (h : Spells (lexAnswers source) (Disjunction.chain name op n).tokens)
    : ∃ c, parse source = .ok c ∧ c.ComparesSome name op (n + 1) := by
  obtain ⟨tokens, htokens, hd⟩ := spells_iff.mp h
  obtain ⟨c, hc, hreads⟩ := parse_of_derivation (tokenize_eq_ok.mpr htokens) hd
  refine ⟨c, hc, hreads.of_eq rfl (Disjunction.comparisons_chain name op n) ?_⟩
  intro assign
  rw [Disjunction.holds_chain, List.range_eq_range']

theorem readsAll_of_text {first : String × Operator} {rest : List (String × Operator)}
    (h : Spells (lexAnswers source) (Conjunction.ofComparisons first rest).tokens)
    : ∃ c, parse source = .ok c
        ∧ c.Reads 0 (first :: rest) fun assign => (List.range (rest.length + 1)).all assign := by
  obtain ⟨tokens, htokens, hd⟩ := spells_iff.mp h
  obtain ⟨c, hc, hreads⟩ := parse_of_derivation (d := .last (Conjunction.ofComparisons first rest))
    (tokenize_eq_ok.mpr htokens) hd
  refine ⟨c, hc, hreads.of_eq rfl (Conjunction.comparisons_ofComparisons first rest) ?_⟩
  intro assign
  rw [List.range_eq_range']
  exact Conjunction.holds_ofComparisons first rest assign 0

theorem comparesAll_of_text {n : Nat}
    (h : Spells (lexAnswers source) (Conjunction.chain name op n).tokens)
    : ∃ c, parse source = .ok c ∧ c.ComparesAll name op (n + 1) := by
  rw [Conjunction.chain_eq] at h
  obtain ⟨c, hc, hreads⟩ := readsAll_of_text h
  rw [List.length_replicate, ← List.replicate_succ] at hreads
  exact ⟨c, hc, hreads⟩

end Texts

/-- A condition with its arguments becomes a filter if and only if another one with its own arguments does,
and the two filters let the same records through. -/
structure SameFilter (scope : ObjectType) (c : Condition) (args : List Value) (c' : Condition)
    (args' : List Value) : Prop where
  compiles : (∃ e, c.compile scope args = .ok e) ↔ ∃ e, c'.compile scope args' = .ok e
  evaluate : ∀ e e', c.compile scope args = .ok e → c'.compile scope args' = .ok e'
    → ∀ r, e.evaluate r = e'.evaluate r

/-- The field that a name stands for, and the operands that it makes of arguments. -/
structure BindsAll (scope : ObjectType) (name : String) (args : List Value) (f : Field)
    (operands : List Value) : Prop where
  field : Field.resolve scope name = .ok f
  operands : List.Forall₂ (fun v operand => f.bindScalar v = .ok operand) args operands

variable {scope : ObjectType} {name : String} {args operands : List Value} {f : Field}
  {op each : Operator}

theorem takesScalar_of_each? (h : op.each? = some each) : each.takesScalar = true := by
  cases op <;> cases h <;> rfl

theorem bindOperand_array (h : op.each? = some each) (f : Field) {operand : Value}
    : f.bindOperand op (.array args) = .ok operand
        ↔
      ∃ operands, args.mapM f.bindScalar = .ok operands ∧ operand = .array operands := by
  have hbind : f.bindOperand op (.array args)
      = do return .array (← args.mapM f.bindScalar) := by
    cases op <;> cases h <;> rfl
  rw [hbind, bind_eq_ok]
  constructor
  . rintro ⟨operands, hoperands, h⟩
    cases h
    exact ⟨operands, hoperands, rfl⟩
  . rintro ⟨operands, hoperands, rfl⟩
    exact ⟨operands, hoperands, rfl⟩

/-- A choice becomes a test if and only if all candidates become operands. -/
theorem binds_choice (h : op.each? = some each) {t : Test}
    : Binds scope [.array args] ((name, op), 0) t
        ↔
      ∃ f operands, BindsAll scope name args f operands ∧ t = ⟨f, op, .array operands⟩ := by
  constructor
  . rintro ⟨hfield, hop, arg, harg, hoperand⟩
    cases harg
    obtain ⟨operands, hoperands, hoperand⟩ := (bindOperand_array h _).mp hoperand
    refine ⟨t.field, operands, ⟨hfield, mapM_eq_ok.mp hoperands⟩, ?_⟩
    obtain ⟨f, op', operand⟩ := t
    cases hop
    cases hoperand
    rfl
  . rintro ⟨f, operands, ⟨hfield, hoperands⟩, rfl⟩
    exact ⟨hfield, rfl, _, rfl, (bindOperand_array h f).mpr ⟨operands, mapM_eq_ok.mpr hoperands, rfl⟩⟩

/-- The comparison with one of the arguments becomes a test with one of the operands. -/
theorem BindsAll.binds (h : BindsAll scope name args f operands) (hscalar : op.takesScalar = true)
    {i : Nat} {operand : Value} (hi : operands[i]? = some operand)
    : Binds scope args ((name, op), i) ⟨f, op, operand⟩ := by
  obtain ⟨hlt, rfl⟩ := List.getElem?_eq_some_iff.mp hi
  have hlt' : i < args.length := by
    rw [h.operands.length_eq]
    exact hlt
  refine ⟨h.field, rfl, args[i], List.getElem?_eq_getElem hlt', ?_⟩
  rw [Field.bindOperand_of_takesScalar hscalar]
  exact h.operands.get hlt' hlt

/-- If there is a first argument, the comparisons with all arguments become tests if and only if all
arguments become operands. -/
theorem binds_each (hscalar : op.takesScalar = true) (hargs : args ≠ [])
    : (∀ i < args.length, ∃ t, Binds scope args ((name, op), i) t)
        ↔
      ∃ f operands, BindsAll scope name args f operands := by
  constructor
  . intro h
    obtain ⟨first, hfirst⟩ := h 0 (List.length_pos_iff.mpr hargs)
    have hall : ∀ v ∈ args, ∃ operand, first.field.bindScalar v = .ok operand := by
      intro v hv
      obtain ⟨i, hi, rfl⟩ := List.mem_iff_getElem.mp hv
      obtain ⟨t, ht⟩ := h i hi
      obtain ⟨arg, harg, hoperand⟩ := ht.operand
      have hfield : t.field = first.field := Except.ok.inj (ht.field.symm.trans hfirst.field)
      rw [List.getElem?_eq_getElem hi] at harg
      cases harg
      rw [Field.bindOperand_of_takesScalar hscalar, hfield] at hoperand
      exact ⟨t.operand, hoperand⟩
    obtain ⟨operands, hoperands⟩ := exists_mapM_iff.mpr hall
    exact ⟨first.field, operands, hfirst.field, mapM_eq_ok.mp hoperands⟩
  . rintro ⟨f, operands, h⟩ i hi
    rw [h.operands.length_eq] at hi
    exact ⟨_, h.binds hscalar (List.getElem?_eq_getElem hi)⟩

/-- A choice is the same filter as a chain that has the truth value of the choice wherever each comparison
says whether the operator holds for its operand. -/
theorem sameFilter_of_each (hop : op.each? = some each) (hargs : args ≠ []) {c chain : Condition}
    {value : (Nat → Bool) → Bool} (hc : c.Compares name op)
    (hchain : chain.Reads 0 (List.replicate args.length (name, each)) value)
    (hvalue : ∀ (v : Value) (operands : List Value), operands.length = args.length
      → value (fun i => operands[i]?.any (each.apply v)) = op.apply v (.array operands))
    : SameFilter scope c [.array args] chain args := by
  have hscalar := takesScalar_of_each? hop
  constructor
  . rw [hc.compiles_iff, Condition.compiles_iff, hchain.comparisons, forall_mem_zipIdx_replicate,
      binds_each hscalar hargs]
    simp only [binds_choice hop]
    constructor
    . rintro ⟨_, f, operands, h, -⟩
      exact ⟨f, operands, h⟩
    . rintro ⟨f, operands, h⟩
      exact ⟨_, f, operands, h, rfl⟩
  . intro e e' he he' r
    obtain ⟨t, ht⟩ := hc.compiles_iff.mp ⟨e, he⟩
    obtain ⟨f, operands, h, rfl⟩ := (binds_choice hop).mp ht
    -- The chain is read for the answers that the operands of the choice give, each at its number.
    have hassign : ∀ x ∈ chain.comparisons, ∀ t, Binds scope args x t
        → t.evaluate r = operands[x.2]?.any (each.apply (f.read r)) := by
      rw [hchain.comparisons, forall_mem_zipIdx_replicate]
      intro i hi t ht
      rw [h.operands.length_eq] at hi
      have hi' := List.getElem?_eq_getElem hi
      rw [ht.unique (h.binds hscalar hi'), hi']
      rfl
    calc
      e.evaluate r = op.apply (f.read r) (.array operands) := hc.evaluate he ht r
      _ = value fun i => operands[i]?.any (each.apply (f.read r)) :=
        (hvalue _ operands h.operands.length_eq.symm).symm
      _ = chain.holds fun i => operands[i]?.any (each.apply (f.read r)) := (hchain.holds _).symm
      _ = e'.evaluate r := (evaluate_of_compile he' hassign).symm

/-- For every field name and all arguments, if there are any: `in` with the list of the arguments is the
same filter as the chain of `=` with one argument or another, and `not in` with the list is the same as the
chain of `!=` with all arguments. -/
theorem choice_same_as_chain (scope : ObjectType) (name : String) {args : List Value} (hargs : args ≠ [])
    : (∀ c chain : Condition, c.Compares name .isIn → chain.ComparesSome name .eq args.length
        → SameFilter scope c [.array args] chain args)
        ∧
      (∀ c chain : Condition, c.Compares name .notIn → chain.ComparesAll name .ne args.length
        → SameFilter scope c [.array args] chain args) := by
  constructor
  . intro c chain hc hchain
    refine sameFilter_of_each rfl hargs hc hchain ?_
    intro v operands hlength
    rw [← hlength]
    exact any_range_length _ operands
  . intro c chain hc hchain
    refine sameFilter_of_each rfl hargs hc hchain ?_
    intro v operands hlength
    rw [← hlength, all_range_length]
    exact (List.not_any_eq_all_not ..).symm

def crateType : ObjectType :=
  (ObjectType.ofName "crate").addAttribute { name := "size", type := .integer }

/-- Arguments for the sizes of crates: an integer, none, and a float. -/
def sizes : List Value :=
  [.string "2", .null, .string "2.5"]

theorem choice_same_as_chain_of_sizes
    : (∃ c chain, parse "size in ?" = .ok c
        ∧ parse "size = ? or size = ? or size = ?" = .ok chain
        ∧ (∃ e, c.compile crateType [.array sizes] = .ok e)
        ∧ SameFilter crateType c [.array sizes] chain sizes)
        ∧
      (∃ c chain, parse "size not in ?" = .ok c
        ∧ parse "size != ? and size != ? and size != ?" = .ok chain
        ∧ (∃ e, c.compile crateType [.array sizes] = .ok e)
        ∧ SameFilter crateType c [.array sizes] chain sizes) := by
  have hsizes : sizes ≠ [] := List.cons_ne_nil _ _
  constructor
  . obtain ⟨c, hparse, hc⟩ : ∃ c, parse "size in ?" = .ok c ∧ c.Compares "size" .isIn := by
      apply compares_of_text
      unfold Spells
      decide +kernel
    obtain ⟨chain, hparse', hchain⟩ : ∃ chain, parse "size = ? or size = ? or size = ?" = .ok chain
        ∧ chain.ComparesSome "size" .eq 3 := by
      apply comparesSome_of_text (n := 2)
      unfold Spells
      decide +kernel
    refine ⟨c, chain, hparse, hparse', hc.compiles_iff.mpr ?_,
      (choice_same_as_chain crateType "size" hsizes).1 c chain hc hchain⟩
    exact ⟨⟨.attr "size" .integer, .isIn, _⟩, rfl, rfl, _, rfl, rfl⟩
  . obtain ⟨c, hparse, hc⟩ : ∃ c, parse "size not in ?" = .ok c ∧ c.Compares "size" .notIn := by
      apply compares_of_text
      unfold Spells
      decide +kernel
    obtain ⟨chain, hparse', hchain⟩ : ∃ chain, parse "size != ? and size != ? and size != ?" = .ok chain
        ∧ chain.ComparesAll "size" .ne 3 := by
      apply comparesAll_of_text (n := 2)
      unfold Spells
      decide +kernel
    refine ⟨c, chain, hparse, hparse', hc.compiles_iff.mpr ?_,
      (choice_same_as_chain crateType "size" hsizes).2 c chain hc hchain⟩
    exact ⟨⟨.attr "size" .integer, .notIn, _⟩, rfl, rfl, _, rfl, rfl⟩

end Condition

end ObjectStore
