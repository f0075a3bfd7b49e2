import Mathlib
import ObjectStore.Proofs.Filter.Binding
import ObjectStore.Proofs.Filter.RoundTrip

/-!
This module proves that the arguments of a filter are bound in order. The comparisons of a condition are
looked up one by one, from left to right: if all of them become tests, the filter has the shape of the
condition with a test in the place of each comparison, and otherwise the first comparison that does not
become a test gives the error.
-/

namespace ObjectStore

/-- A comparison of a condition, with the places of its parts in the text. -/
structure Comparison where
  field : Spanned String
  op : Spanned Operator
  placeholder : Spanned Nat

namespace Comparison

/-- The comparison without places. -/
def key (x : Comparison) : (String × Operator) × Nat :=
  ((x.field.value, x.op.value), x.placeholder.value)

/-- The filter that a comparison becomes on its own. -/
def compile (scope : ObjectType) (args : List Value) (x : Comparison) : Except CompileError Expression :=
  Condition.compileComparison scope args x.field x.op.value x.placeholder

/-- What is wrong with a comparison: its name, or else that it has no argument, or else its argument. -/
inductive Fails (scope : ObjectType) (args : List Value) (x : Comparison) : CompileError → Prop where
  | name {fault : CompileFault} (h : Field.resolve scope x.field.value = .error fault)
    : Fails scope args x ⟨fault, x.field.span⟩
  | argument {f : Field} (hfield : Field.resolve scope x.field.value = .ok f)
    (h : args[x.placeholder.value]? = none)
    : Fails scope args x ⟨.missingArgument x.placeholder.value args.length, x.placeholder.span⟩
  | operand {f : Field} {arg : Value} {fault : CompileFault}
    (hfield : Field.resolve scope x.field.value = .ok f) (harg : args[x.placeholder.value]? = some arg)
    (h : f.bindOperand x.op.value arg = .error fault)
    : Fails scope args x ⟨fault, x.placeholder.span⟩

variable {scope : ObjectType} {args : List Value} {x : Comparison}

theorem compile_eq_ok {e : Expression}
    : x.compile scope args = .ok e ↔ ∃ t, Condition.Binds scope args x.key t ∧ e = .test t :=
  Condition.compileComparison_eq_ok

theorem locate_eq_error {α : Type} {span : Span} {y : Except CompileFault α} {err : CompileError}
    : Condition.locate span y = .error err ↔ ∃ fault, y = .error fault ∧ err = ⟨fault, span⟩ :=
  mapError_eq_error

theorem compile_eq_error {err : CompileError}
    : x.compile scope args = .error err ↔ x.Fails scope args err := by
  unfold compile Condition.compileComparison
  rw [bind_eq_error]
  constructor
  . rintro (h | ⟨f, hf, h⟩)
    . obtain ⟨fault, hfault, rfl⟩ := locate_eq_error.mp h
      exact .name hfault
    . have hfield := Condition.locate_eq_ok.mp hf
      split at h
      . next harg =>
        cases h
        exact .argument hfield harg
      . next arg harg =>
        obtain h | ⟨operand, -, h⟩ := bind_eq_error.mp h
        . obtain ⟨fault, hfault, rfl⟩ := locate_eq_error.mp h
          exact .operand hfield harg hfault
        . cases h
  . intro h
    cases h with
    | name h => exact .inl (locate_eq_error.mpr ⟨_, h, rfl⟩)
    | argument hfield h =>
      refine .inr ⟨_, Condition.locate_eq_ok.mpr hfield, ?_⟩
      rw [h]
      rfl
    | operand hfield harg h =>
      refine .inr ⟨_, Condition.locate_eq_ok.mpr hfield, ?_⟩
      rw [harg]
      exact bind_eq_error.mpr (.inl (locate_eq_error.mpr ⟨_, h, rfl⟩))

theorem exists_compile_iff
    : (∃ e, x.compile scope args = .ok e) ↔ ∃ t, Condition.Binds scope args x.key t := by
  simp only [compile_eq_ok]
  constructor
  . rintro ⟨_, t, ht, -⟩
    exact ⟨t, ht⟩
  . rintro ⟨t, ht⟩
    exact ⟨_, t, ht, rfl⟩

theorem Fails.span {err : CompileError} (h : x.Fails scope args err)
    : err.span = x.field.span ∨ err.span = x.placeholder.span := by
  cases h with
  | name => exact .inl rfl
  | argument | operand => exact .inr rfl

end Comparison

namespace Condition

mutual

/-- The comparisons from left to right, with their places in the text. -/
def leaves : Condition → List Comparison
  | comparison field op placeholder => [⟨field, op, placeholder⟩]
  | all parts => partLeaves parts
  | any parts => partLeaves parts

def partLeaves : List Condition → List Comparison
  | [] => []
  | part :: parts => part.leaves ++ partLeaves parts

end

/-- A filter has the shape of a condition, and in the place of each comparison stands a test. -/
inductive Mirrors (bound : Comparison → Test → Prop) : Condition → Expression → Prop where
  | comparison {x : Comparison} {t : Test} (h : bound x t)
    : Mirrors bound (comparison x.field x.op x.placeholder) (.test t)
  | all {parts : List Condition} {es : List Expression} (h : List.Forall₂ (Mirrors bound) parts es)
    : Mirrors bound (all parts) (.all es)
  | any {parts : List Condition} {es : List Expression} (h : List.Forall₂ (Mirrors bound) parts es)
    : Mirrors bound (any parts) (.any es)

mutual

theorem comparisons_eq_map (c : Condition) : c.comparisons = c.leaves.map Comparison.key := by
  cases c with
  | comparison field op placeholder => rfl
  | all parts | any parts => exact partComparisons_eq_map parts

theorem partComparisons_eq_map (parts : List Condition)
    : partComparisons parts = (partLeaves parts).map Comparison.key := by
  cases parts with
  | nil => rfl
  | cons part parts =>
    rw [partComparisons, partLeaves, List.map_append, comparisons_eq_map, partComparisons_eq_map]

end

variable {scope : ObjectType} {args : List Value}

mutual

theorem compile_eq_ok {c : Condition} {e : Expression}
    : c.compile scope args = .ok e ↔ c.Mirrors (fun x t => Binds scope args x.key t) e := by
  cases c with
  | comparison field op placeholder =>
    rw [compile, compileComparison_eq_ok]
    constructor
    . rintro ⟨t, ht, rfl⟩
      exact .comparison (x := ⟨field, op, placeholder⟩) ht
    . intro h
      cases h with
      | comparison h => exact ⟨_, h, rfl⟩
  | all parts | any parts =>
    rw [compile, bind_eq_ok]
    constructor
    . rintro ⟨es, hes, h⟩
      cases h
      constructor
      exact compileParts_eq_ok.mp hes
    . intro h
      cases h with
      | _ h => exact ⟨_, compileParts_eq_ok.mpr h, rfl⟩

theorem compileParts_eq_ok {parts : List Condition} {es : List Expression}
    : compileParts scope args parts = .ok es
        ↔
      List.Forall₂ (Mirrors fun x t => Binds scope args x.key t) parts es := by
  cases parts with
  | nil =>
    rw [compileParts, List.forall₂_nil_left_iff]
    constructor
    . intro h
      cases h
      rfl
    . rintro rfl
      rfl
  | cons part parts =>
    rw [compileParts, bind_eq_ok, List.forall₂_cons_left_iff]
    simp only [bind_eq_ok, compile_eq_ok, compileParts_eq_ok]
    constructor
    . rintro ⟨e, he, es, hes, h⟩
      cases h
      exact ⟨e, es, he, hes, rfl⟩
    . rintro ⟨e, es, he, hes, rfl⟩
      exact ⟨e, he, es, hes, rfl⟩

end

theorem exists_compile_iff {c : Condition}
    : (∃ e, c.compile scope args = .ok e)
        ↔
      ∃ es, c.leaves.mapM (Comparison.compile scope args) = .ok es := by
  rw [compiles_iff, comparisons_eq_map, List.forall_mem_map, exists_mapM_iff]
  simp only [Comparison.exists_compile_iff]

mutual

/-- A condition fails as its comparisons do, one after the other. -/
theorem compile_eq_error {c : Condition} {err : CompileError}
    : c.compile scope args = .error err
        ↔
      c.leaves.mapM (Comparison.compile scope args) = .error err := by
  cases c with
  | comparison field op placeholder =>
    rw [leaves, List.mapM_cons, List.mapM_nil, compile, Comparison.compile]
    exact bind_pure_eq_error.symm
  | all parts | any parts =>
    rw [compile, leaves, ← compileParts_eq_error]
    exact bind_pure_eq_error

theorem compileParts_eq_error {parts : List Condition} {err : CompileError}
    : compileParts scope args parts = .error err
        ↔
      (partLeaves parts).mapM (Comparison.compile scope args) = .error err := by
  cases parts with
  | nil =>
    rw [compileParts, partLeaves, List.mapM_nil]
    rfl
  | cons part parts =>
    rw [compileParts, partLeaves, List.mapM_append, bind_eq_error, bind_eq_error, compile_eq_error]
    simp only [bind_pure_eq_error, compileParts_eq_error, exists_and_right, exists_compile_iff]

end

theorem compileComparison_append {field : Spanned String} {op : Operator} {placeholder : Spanned Nat}
    (h : placeholder.value < args.length) (more : List Value)
    : compileComparison scope (args ++ more) field op placeholder
        =
      compileComparison scope args field op placeholder := by
  unfold compileComparison
  rw [List.getElem?_append_left h, List.getElem?_eq_getElem h]

mutual

theorem compile_append {c : Condition} (h : ∀ x ∈ c.leaves, x.placeholder.value < args.length)
    (more : List Value) : c.compile scope (args ++ more) = c.compile scope args := by
  cases c with
  | comparison field op placeholder =>
    exact compileComparison_append (h _ (List.mem_singleton_self _)) more
  | all parts | any parts => rw [compile, compile, compileParts_append h more]

theorem compileParts_append {parts : List Condition}
    (h : ∀ x ∈ partLeaves parts, x.placeholder.value < args.length) (more : List Value)
    : compileParts scope (args ++ more) parts = compileParts scope args parts := by
  cases parts with
  | nil => rfl
  | cons part parts =>
    obtain ⟨hpart, hparts⟩ := List.forall_mem_append.mp h
    rw [compileParts, compileParts, compile_append hpart more, compileParts_append hparts more]

end

theorem numbers_of_parse {source : String} {c : Condition} (h : parse source = .ok c)
    : c.leaves.map (·.placeholder.value) = List.range c.placeholderCount := by
  rw [← numbered_of_parse h, comparisons_eq_map, List.map_map]
  rfl

theorem exists_error_of_length_lt {c : Condition}
    (hnumbers : c.leaves.map (·.placeholder.value) = List.range c.placeholderCount)
    (h : args.length < c.placeholderCount) : ∃ err, c.compile scope args = .error err := by
  cases hcompile : c.compile scope args with
  | error err => exact ⟨err, rfl⟩
  | ok e =>
    -- The comparison whose number is the number of arguments has none.
    have hmem : args.length ∈ c.leaves.map (·.placeholder.value) := by
      rw [hnumbers]
      exact List.mem_range.mpr h
    obtain ⟨x, hx, hnumber⟩ := List.mem_map.mp hmem
    obtain ⟨es, hes⟩ := exists_compile_iff.mp ⟨e, hcompile⟩
    obtain ⟨t, ht⟩ := Comparison.exists_compile_iff.mp (exists_mapM_iff.mp ⟨es, hes⟩ x hx)
    obtain ⟨arg, harg, -⟩ := ht.operand
    obtain ⟨hlt, -⟩ := List.getElem?_eq_some_iff.mp harg
    exact absurd hnumber (Nat.ne_of_lt hlt)

/-- The placeholders of a parsed condition are numbered from left to right. It becomes a filter if and only
if each of its comparisons becomes a test with the argument of its number, and the filter has these tests in
the places of the comparisons. Otherwise the first comparison that does not become a test gives the error,
at its field or at its placeholder. Too few arguments are always an error, and those beyond the placeholders
have no influence. -/
theorem compile_of_parse {source : String} {c : Condition} (h : parse source = .ok c)
    (scope : ObjectType) (args : List Value)
    : c.leaves.map (·.placeholder.value) = List.range c.placeholderCount
        ∧ ((∃ e, c.compile scope args = .ok e) ↔ ∀ x ∈ c.leaves, ∃ t, Binds scope args x.key t)
        ∧ (∀ e, c.compile scope args = .ok e ↔ c.Mirrors (fun x t => Binds scope args x.key t) e)
        ∧ (∀ err, c.compile scope args = .error err
            ↔ ∃ front x back, c.leaves = front ++ x :: back
                ∧ (∀ y ∈ front, ∃ t, Binds scope args y.key t)
                ∧ x.Fails scope args err
                ∧ (err.span = x.field.span ∨ err.span = x.placeholder.span))
        ∧ (args.length < c.placeholderCount → ∃ err, c.compile scope args = .error err)
        ∧ (c.placeholderCount ≤ args.length
            → ∀ more, c.compile scope (args ++ more) = c.compile scope args) := by
  have hnumbers := numbers_of_parse h
  refine ⟨hnumbers, ?_, fun e => compile_eq_ok, ?_, exists_error_of_length_lt hnumbers, ?_⟩
  . rw [compiles_iff, comparisons_eq_map, List.forall_mem_map]
  . intro err
    rw [compile_eq_error, mapM_eq_error]
    simp only [Comparison.exists_compile_iff, Comparison.compile_eq_error]
    constructor
    . rintro ⟨front, x, back, hsplit, hfront, hfails⟩
      exact ⟨front, x, back, hsplit, hfront, hfails, hfails.span⟩
    . rintro ⟨front, x, back, hsplit, hfront, hfails, -⟩
      exact ⟨front, x, back, hsplit, hfront, hfails⟩
  . intro hlength
    apply compile_append
    intro x hx
    have hmem : x.placeholder.value ∈ List.range c.placeholderCount := by
      rw [← hnumbers]
      exact List.mem_map_of_mem hx
    exact Nat.lt_of_lt_of_le (List.mem_range.mp hmem) hlength

def parcelType : ObjectType :=
  (ObjectType.ofName "parcel").addAttribute { name := "size", type := .integer }

def sizeAbove : Comparison :=
  ⟨⟨"size", ⟨0, 4⟩⟩, ⟨.gt, ⟨5, 6⟩⟩, ⟨0, ⟨7, 8⟩⟩⟩

def sizeAmong : Comparison :=
  ⟨⟨"size", ⟨14, 18⟩⟩, ⟨.isIn, ⟨19, 21⟩⟩, ⟨1, ⟨22, 23⟩⟩⟩

def idEqual : Comparison :=
  ⟨⟨"id", ⟨27, 29⟩⟩, ⟨.eq, ⟨30, 31⟩⟩, ⟨2, ⟨32, 33⟩⟩⟩

def parcelFilter : Condition :=
  .all [
    .comparison sizeAbove.field sizeAbove.op sizeAbove.placeholder,
    .any [
      .comparison sizeAmong.field sizeAmong.op sizeAmong.placeholder,
      .comparison idEqual.field idEqual.op idEqual.placeholder]]

-- Both alternatives have a wrong argument, and the first of them is reported.
theorem compile_of_parse_of_parcel
    : parse "size > ? and (size in ? or id = ?)" = .ok parcelFilter
        ∧ parcelFilter.Mirrors
            (fun x t => Binds parcelType [.int 1, .array [.string "2"], .string "a"] x.key t)
            (.all [
              .test ⟨.attr "size" .integer, .gt, .int 1⟩,
              .any [
                .test ⟨.attr "size" .integer, .isIn, .array [.int 2]⟩,
                .test ⟨.id, .eq, .string "a"⟩]])
        ∧ parcelFilter.compile parcelType [.int 1, .string "2", .int 3]
            = .error ⟨.notList .isIn "size" "string", ⟨22, 23⟩⟩
        ∧ (∃ err, parcelFilter.compile parcelType [.int 1, .array []] = .error err)
        ∧ parcelFilter.compile parcelType [.int 1, .array [], .null, .int 3]
            = parcelFilter.compile parcelType [.int 1, .array [], .null] := by
  have hparse : parse "size > ? and (size in ? or id = ?)" = .ok parcelFilter := by cbv
  refine ⟨hparse, ?_, ?_, ?_, ?_⟩
  . obtain ⟨-, -, hmirrors, -⟩ :=
      compile_of_parse hparse parcelType [.int 1, .array [.string "2"], .string "a"]
    exact (hmirrors _).mp rfl
  . obtain ⟨-, -, -, herror, -⟩ := compile_of_parse hparse parcelType [.int 1, .string "2", .int 3]
    refine (herror _).mpr ⟨[sizeAbove], sizeAmong, [idEqual], rfl, ?_, ?_, .inr rfl⟩
    . intro y hy
      cases List.mem_singleton.mp hy
      exact ⟨⟨.attr "size" .integer, .gt, .int 1⟩, rfl, rfl, .int 1, rfl, rfl⟩
    . exact .operand (f := .attr "size" .integer) rfl rfl rfl
  . obtain ⟨-, -, -, -, hfewer, -⟩ := compile_of_parse hparse parcelType [.int 1, .array []]
    exact hfewer (by decide)
  . obtain ⟨-, -, -, -, -, hmore⟩ := compile_of_parse hparse parcelType [.int 1, .array [], .null]
    exact hmore (by decide) [.int 3]

end Condition

end ObjectStore
