import ObjectStore.Proofs.Filter.Choice
import ObjectStore.Proofs.Filter.Placeholders

/-!
This module proves that a filter for equality of named fields with values can be given in two ways, as a list
of entries or as a text with the values as arguments: both become filters or neither does, because of the
same fault, and the filters let the same records through.
-/

namespace ObjectStore

namespace Condition

open Grammar Scanner

/-- The text that compares each of the fields with an argument. -/
def equalities (names : List String) : String :=
  " and ".intercalate (names.map fun name => name ++ " = ?")

theorem splitsInto_equalities {names : List String} (h : ∀ name ∈ names, isFieldName name = true)
    : SplitsInto answers (equalities names).toList
        (List.intercalate [.and]
          (names.map fun name => [.identifier name, .operator .eq, .placeholder])) := by
  unfold equalities
  rw [String.toList_intercalate, List.map_map]
  apply splitsInto_intercalate (splitsInto_connective "and" rfl rfl rfl)
  rw [List.forall₂_map_left_iff, List.forall₂_map_right_iff, List.forall₂_same]
  intro name hname
  have hsplits : SplitsInto answers (name.toList ++ [' '] ++ (Operator.eq.spelling.toList ++ [' ']) ++ ['?'])
      [.identifier name, .operator .eq, .placeholder] := splitsInto_comparison (h name hname) (by simp)
  simpa [Operator.spelling] using hsplits

theorem parse_equalities {names : List String} (hnames : names ≠ [])
    (h : ∀ name ∈ names, isFieldName name = true)
    : ∃ c, parse (equalities names) = .ok c
        ∧ c.Reads 0 (names.map (·, .eq)) fun assign => (List.range names.length).all assign := by
  cases names with
  | nil => exact absurd rfl hnames
  | cons first rest =>
    have hspells : Spells (lexAnswers (equalities (first :: rest)))
        (Conjunction.ofComparisons (first, .eq) (rest.map (·, .eq))).tokens := by
      rw [Conjunction.tokens_ofComparisons, ← List.map_cons (f := (·, Operator.eq)), List.map_map]
      exact spells_of_splitsInto (splitsInto_equalities h)
    obtain ⟨c, hc, hreads⟩ := readsAll_of_text hspells
    rw [List.length_map] at hreads
    exact ⟨c, hc, hreads⟩

section Leaves

variable {scope : ObjectType} {args : List Value} {c : Condition} {comparisons : List (String × Operator)}
  {value : (Nat → Bool) → Bool}

theorem Reads.length_leaves (h : c.Reads 0 comparisons value)
    : c.leaves.length = comparisons.length := by
  rw [← List.length_zipIdx (l := comparisons) (i := 0), ← h.comparisons, comparisons_eq_map,
    List.length_map]

theorem Reads.key_leaves (h : c.Reads 0 comparisons value) {i : Nat} (hi : i < c.leaves.length)
    (hi' : i < comparisons.length) : c.leaves[i].key = (comparisons[i], i) := by
  have hkeys : c.leaves.map Comparison.key = comparisons.zipIdx := by
    rw [← comparisons_eq_map, h.comparisons]
  have hkey := List.getElem_of_eq hkeys (i := i) (by rwa [List.length_map])
  rw [List.getElem_map, List.getElem_zipIdx, Nat.zero_add] at hkey
  exact hkey

/-- The filter holds for a record if the condition holds for the answers of its tests in their order. -/
theorem Reads.evaluate_of_leaves (h : c.Reads 0 comparisons value) {e : Expression}
    {es : List Expression} (he : c.compile scope args = .ok e)
    (hes : c.leaves.mapM (Comparison.compile scope args) = .ok es) (r : Record)
    : e.evaluate r = c.holds fun i => es[i]?.any (Expression.evaluate r) := by
  apply evaluate_of_compile he
  intro x hx t ht
  rw [comparisons_eq_map] at hx
  obtain ⟨y, hy, rfl⟩ := List.mem_map.mp hx
  obtain ⟨i, hi, rfl⟩ := List.mem_iff_getElem.mp hy
  have htests := mapM_eq_ok.mp hes
  have hi' : i < es.length := by
    rw [← htests.length_eq]
    exact hi
  obtain ⟨t', ht', htest⟩ := Comparison.compile_eq_ok.mp (htests.get hi hi')
  have hnumber : c.leaves[i].key.2 = i := by
    rw [h.length_leaves] at hi
    rw [h.key_leaves _ hi]
  rw [hnumber, List.getElem?_eq_getElem hi', ht.unique ht']
  exact (congrArg (Expression.evaluate r) htest).symm

end Leaves

end Condition

namespace Expression

open Condition Scanner

/-- The filter for one entry. -/
def ofEntry (scope : ObjectType) (entry : String × Value) : Except CompileError Expression :=
  locate .none do
    let field ← Field.resolve scope entry.1
    return equals field (← field.bindScalar entry.2)

theorem ofEntries_eq_bind (scope : ObjectType) (entries : List (String × Value))
    : ofEntries scope entries = do return all (← entries.mapM (ofEntry scope)) := by
  rfl

theorem fault_locate {α : Type} (span : Span) (x : Except CompileFault α)
    : (locate span x).mapError CompileError.fault = x := by
  cases x with
  | error fault => rfl
  | ok a => rfl

/-- A comparison for equality becomes the same test as the entry of its field and its argument, or has the
same fault. -/
theorem compile_eq_ofEntry {scope : ObjectType} {args : List Value} {x : Comparison}
    {entry : String × Value} {i : Nat} (hkey : x.key = ((entry.1, .eq), i))
    (harg : args[i]? = some entry.2)
    : (x.compile scope args).mapError CompileError.fault
        =
      (ofEntry scope entry).mapError CompileError.fault := by
  obtain ⟨⟨name, span⟩, ⟨op, span'⟩, ⟨number, span''⟩⟩ := x
  cases hkey
  unfold ofEntry Comparison.compile compileComparison
  rw [fault_locate, mapError_bind, fault_locate, harg]
  simp only [mapError_bind, fault_locate]
  rfl

/-- The filter that the text of equalities becomes with the values as its arguments. -/
def ofEqualities (scope : ObjectType) (entries : List (String × Value)) : Except FilterError Expression :=
  ofSource scope (equalities (entries.map Prod.fst)) (entries.map Prod.snd)

theorem mapM_compile_eq_mapM_ofEntry (scope : ObjectType) {entries : List (String × Value)}
    {c : Condition} {value : (Nat → Bool) → Bool} (h : c.Reads 0 (entries.map fun entry => (entry.1, .eq)) value)
    : (c.leaves.mapM (Comparison.compile scope (entries.map Prod.snd))).mapError CompileError.fault
        =
      (entries.mapM (ofEntry scope)).mapError CompileError.fault := by
  rw [mapError_mapM, mapError_mapM]
  apply mapM_eq_mapM
  have hlength := h.length_leaves
  rw [List.length_map] at hlength
  refine List.forall₂_iff_get.mpr ⟨hlength, ?_⟩
  intro i hi hi'
  have hkey := h.key_leaves hi (by rwa [List.length_map])
  rw [List.getElem_map] at hkey
  apply compile_eq_ofEntry hkey
  rw [List.getElem?_map, List.getElem?_eq_getElem hi']
  rfl

/-- For all entries with names of fields, if there are any: the list of the entries becomes a filter if and
only if the text `k = ? and .. and k = ?` becomes one with the values as its arguments. If not, then both
have the same fault, and so the same kind of error, and if so, then the two filters let the same records
through. -/
theorem ofEntries_same_as_text (scope : ObjectType) {entries : List (String × Value)}
    (hentries : entries ≠ []) (hnames : ∀ entry ∈ entries, isFieldName entry.1 = true)
    : ((∃ e, ofEntries scope entries = .ok e) ↔ ∃ e, ofEqualities scope entries = .ok e)
        ∧
      (∀ err, ofEntries scope entries = .error err
        → ∃ span, ofEqualities scope entries = .error (.compile ⟨err.fault, span⟩))
        ∧
      ∀ e e', ofEntries scope entries = .ok e → ofEqualities scope entries = .ok e'
        → ∀ r, e.evaluate r = e'.evaluate r := by
  obtain ⟨c, hparse, hreads⟩ :=
    parse_equalities (mt List.map_eq_nil_iff.mp hentries) (List.forall_mem_map.mpr hnames)
  rw [List.length_map, List.map_map] at hreads
  have htext : ofEqualities scope entries
      = (c.compile scope (entries.map Prod.snd)).mapError .compile := by
    unfold ofEqualities ofSource
    rw [hparse]
    rfl
  have hsame := mapM_compile_eq_mapM_ofEntry scope hreads
  have hok : ∀ es, c.leaves.mapM (Comparison.compile scope (entries.map Prod.snd)) = .ok es
      ↔ entries.mapM (ofEntry scope) = .ok es := by
    intro es
    rw [← mapError_eq_ok (k := CompileError.fault), hsame, mapError_eq_ok]
  rw [ofEntries_eq_bind, htext]
  refine ⟨?_, ?_, ?_⟩
  . simp only [mapError_eq_ok, exists_compile_iff, hok, bind_eq_ok]
    constructor
    . rintro ⟨_, es, hes, -⟩
      exact ⟨es, hes⟩
    . rintro ⟨es, hes⟩
      exact ⟨_, es, hes, rfl⟩
  . intro err herr
    have hfault : (entries.mapM (ofEntry scope)).mapError CompileError.fault = .error err.fault :=
      mapError_eq_error.mpr ⟨err, bind_pure_eq_error.mp herr, rfl⟩
    rw [← hsame] at hfault
    obtain ⟨⟨fault, span⟩, herr', hfault⟩ := mapError_eq_error.mp hfault
    refine ⟨span, mapError_eq_error.mpr ⟨_, compile_eq_error.mpr herr', ?_⟩⟩
    rw [hfault]
  . intro e e' he he' r
    obtain ⟨es, hes, h⟩ := bind_eq_ok.mp he
    cases h
    have hlength : entries.length = es.length := (mapM_eq_ok.mp hes).length_eq
    calc
      (all es).evaluate r = es.all (evaluate r) := by rw [evaluate, evaluateAll_eq_all]
      _ = (List.range entries.length).all fun i => es[i]?.any (evaluate r) := by
        rw [hlength, all_range_length]
      _ = c.holds fun i => es[i]?.any (evaluate r) := (hreads.holds _).symm
      _ = e'.evaluate r :=
        (hreads.evaluate_of_leaves (mapError_eq_ok.mp he') ((hok es).mpr hes) r).symm

def wordType : ObjectType :=
  ((ObjectType.ofName "word").addAttribute { name := "not", type := .text }).addAttribute
    { name := "starts", type := .integer }

/-- Words of operators as names, and one field that is named twice. -/
def wordEntries : List (String × Value) :=
  [("not", .string "in"), ("starts", .string "2"), ("starts", .int 3)]

theorem ofEntries_same_as_text_of_words
    : equalities (wordEntries.map Prod.fst) = "not = ? and starts = ? and starts = ?"
        ∧ (∃ e e', ofEntries wordType wordEntries = .ok e ∧ ofEqualities wordType wordEntries = .ok e'
          ∧ ∀ r, e.evaluate r = e'.evaluate r)
        ∧ ∃ err span, ofEntries wordType (("with", .null) :: wordEntries) = .error err
          ∧ ofEqualities wordType (("with", .null) :: wordEntries) = .error (.compile ⟨err.fault, span⟩) := by
  have hentries : wordEntries ≠ [] := List.cons_ne_nil _ _
  have hfault : ("with", .null) :: wordEntries ≠ [] := List.cons_ne_nil _ _
  refine ⟨by decide, ?_, ?_⟩
  . obtain ⟨hok, -, hevaluate⟩ := ofEntries_same_as_text wordType hentries (by decide)
    obtain ⟨e, he⟩ : ∃ e, ofEntries wordType wordEntries = .ok e := ⟨_, rfl⟩
    obtain ⟨e', he'⟩ := hok.mp ⟨e, he⟩
    exact ⟨e, e', he, he', hevaluate e e' he he'⟩
  . obtain ⟨-, herror, -⟩ := ofEntries_same_as_text wordType hfault (by decide)
    obtain ⟨span, h⟩ := herror _ rfl
    exact ⟨_, span, rfl, h⟩

end Expression

end ObjectStore
