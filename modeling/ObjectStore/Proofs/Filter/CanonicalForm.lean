import ObjectStore.Proofs.Filter.Distribution

/-!
This module proves that normal forms are canonical. A canonical form is a disjunction of conjunctions whose
leaves cannot be distributed any further, and the canonical forms are exactly the filters that are their own
normal forms.
-/

namespace ObjectStore

theorem exists_of_mem_choices {α : Type} {lists : List (List α)} {choice : List α} {item : α}
    (hchoice : choice ∈ choices lists) (hitem : item ∈ choice) : ∃ items ∈ lists, item ∈ items := by
  induction lists generalizing choice with
  | nil =>
    rw [choices, List.mem_singleton] at hchoice
    rw [hchoice] at hitem
    cases hitem
  | cons items rest ih =>
    obtain ⟨first, hfirst, hchoice⟩ := List.mem_flatMap.mp hchoice
    obtain ⟨others, hothers, rfl⟩ := List.mem_map.mp hchoice
    obtain rfl | hitem := List.mem_cons.mp hitem
    . exact ⟨items, List.mem_cons_self, hfirst⟩
    . obtain ⟨items', hmem, hitem⟩ := ih hothers hitem
      exact ⟨items', List.mem_cons_of_mem items hmem, hitem⟩

theorem choices_map_singleton {α : Type} (items : List α)
    : choices (items.map fun item => [item]) = [items] := by
  induction items with
  | nil => rfl
  | cons item items ih =>
    rw [List.map_cons, choices, ih]
    rfl

namespace Test

/-- The test asks for one of several candidates. -/
def IsChoice (t : Test) : Prop :=
  t.op = .isIn ∧ ∃ candidates, t.operand = .array candidates

theorem alternatives_of_not_isChoice {t : Test} (h : ¬t.IsChoice) : t.alternatives = [t] := by
  unfold alternatives
  split
  . next candidates hop hoperand => exact absurd ⟨hop, candidates, hoperand⟩ h
  . rfl

theorem not_isChoice_of_mem_alternatives {t alternative : Test} (h : alternative ∈ t.alternatives)
    : ¬alternative.IsChoice := by
  unfold alternatives at h
  split at h
  . obtain ⟨candidate, _, rfl⟩ := List.mem_map.mp h
    rintro ⟨hop, _⟩
    cases hop
  . next hnone =>
    rw [List.mem_singleton] at h
    rw [h]
    rintro ⟨hop, candidates, hoperand⟩
    exact hnone candidates hop hoperand

end Test

namespace Expression

/-- The leaves of a conjunction in a canonical form. The filter that always holds stands there only where
there would be no leaf otherwise. -/
structure IsCanonicalClause (leaves : List Expression) : Prop where
  ne_nil : leaves ≠ []
  isLeaf : ∀ leaf ∈ leaves, leaf.isLeaf = true
  always_alone : always ∈ leaves → leaves = [always]
  not_isChoice : ∀ t, test t ∈ leaves → ¬t.IsChoice

def IsCanonical (e : Expression) : Prop :=
  ∃ parts, e = any parts ∧ ∀ part ∈ parts, ∃ leaves, part = all leaves ∧ IsCanonicalClause leaves

/-- A filter that is its own only clause. -/
def IsAtom : Expression → Prop
  | test t => ¬t.IsChoice
  | pointsAt _ _ => True
  | _ => False

variable {e n : Expression} {clause : Clause} {clauses : List Clause} {limit : Nat}

theorem distributions_eq_map (es : List Expression) : distributions es = es.map distribution := by
  induction es with
  | nil => rfl
  | cons e es ih => rw [distributions, ih, List.map_cons]

namespace IsAtom

theorem isLeaf (h : e.IsAtom) : e.isLeaf = true := by
  cases e with
  | test | pointsAt => rfl
  | all | any | always => cases h

theorem distribution_eq (h : e.IsAtom) : e.distribution = [[e]] := by
  cases e with
  | test t => rw [distribution, Test.alternatives_of_not_isChoice h, List.map_singleton]
  | pointsAt => rfl
  | all | any | always => cases h

theorem clauseCount_eq (h : e.IsAtom) : e.clauseCount = 1 := by
  rw [← length_distribution, h.distribution_eq, List.length_singleton]

theorem peak_eq (h : e.IsAtom) : e.peak = 1 := by
  cases e with
  | test | pointsAt => exact h.clauseCount_eq
  | all | any | always => cases h

end IsAtom

mutual

/-- The distribution takes a filter apart into atoms. -/
theorem isAtom_of_mem_distribution (e : Expression)
    : ∀ clause ∈ e.distribution, ∀ leaf ∈ clause, leaf.IsAtom := by
  intro clause hclause leaf hleaf
  cases e with
  | test t =>
    obtain ⟨alternative, halternative, rfl⟩ := List.mem_map.mp hclause
    rw [List.mem_singleton] at hleaf
    rw [hleaf]
    exact Test.not_isChoice_of_mem_alternatives halternative
  | pointsAt relation id =>
    rw [distribution, List.mem_singleton] at hclause
    rw [hclause, List.mem_singleton] at hleaf
    rw [hleaf]
    trivial
  | all operands =>
    obtain ⟨choice, hchoice, rfl⟩ := List.mem_map.mp hclause
    obtain ⟨part, hpart, hleaf⟩ := List.mem_flatten.mp hleaf
    obtain ⟨parts, hparts, hpart⟩ := exists_of_mem_choices hchoice hpart
    exact isAtom_of_mem_distributions operands parts hparts part hpart leaf hleaf
  | any operands =>
    obtain ⟨parts, hparts, hclause⟩ := List.mem_flatten.mp hclause
    exact isAtom_of_mem_distributions operands parts hparts clause hclause leaf hleaf
  | always =>
    rw [distribution, List.mem_singleton] at hclause
    rw [hclause] at hleaf
    cases hleaf

theorem isAtom_of_mem_distributions (es : List Expression)
    : ∀ clauses ∈ distributions es, ∀ clause ∈ clauses, ∀ leaf ∈ clause, leaf.IsAtom := by
  cases es with
  | nil =>
    intro clauses hclauses
    cases hclauses
  | cons e es =>
    rw [distributions]
    refine List.forall_mem_cons.mpr ⟨?_, isAtom_of_mem_distributions es⟩
    exact isAtom_of_mem_distribution e

end

/-! A conjunction of atoms has one clause, and so a disjunction of such conjunctions has as many clauses as
operands, and never more of them on the way. -/

theorem distribution_conjunction (h : ∀ leaf ∈ clause, leaf.IsAtom)
    : (conjunction clause).distribution = [clause] := by
  have hleaves : distributions clause = (clause.map fun leaf => [leaf]).map fun leaves => [leaves] := by
    rw [distributions_eq_map, List.map_map]
    exact List.map_congr_left fun leaf hleaf => (h leaf hleaf).distribution_eq
  cases clause with
  | nil => rfl
  | cons leaf leaves =>
    change (all (leaf :: leaves)).distribution = [leaf :: leaves]
    rw [distribution, hleaves, choices_map_singleton, List.map_singleton, ← List.flatMap_def,
      List.flatMap_singleton']

theorem clauseCount_conjunction (h : ∀ leaf ∈ clause, leaf.IsAtom)
    : (conjunction clause).clauseCount = 1 := by
  rw [← length_distribution, distribution_conjunction h, List.length_singleton]

theorem peakBehind_atoms (h : ∀ leaf ∈ clause, leaf.IsAtom) : peakBehind (· * ·) 1 clause = 1 := by
  induction clause with
  | nil => rfl
  | cons leaf leaves ih =>
    obtain ⟨hleaf, hleaves⟩ := List.forall_mem_cons.mp h
    rw [peakBehind, hleaf.peak_eq, hleaf.clauseCount_eq, Nat.mul_one, ih hleaves]
    rfl

theorem peak_conjunction (h : ∀ leaf ∈ clause, leaf.IsAtom) : (conjunction clause).peak = 1 := by
  cases clause with
  | nil => rfl
  | cons leaf leaves => exact peakBehind_atoms h

theorem distribution_conjunctions (h : ∀ clause ∈ clauses, ∀ leaf ∈ clause, leaf.IsAtom)
    : (any (clauses.map conjunction)).distribution = clauses := by
  have hparts : distributions (clauses.map conjunction) = clauses.map fun clause => [clause] := by
    rw [distributions_eq_map, List.map_map]
    exact List.map_congr_left fun clause hclause => distribution_conjunction (h clause hclause)
  rw [distribution, hparts, ← List.flatMap_def, List.flatMap_singleton']

theorem peakBehind_conjunctions (n : Nat) (h : ∀ clause ∈ clauses, ∀ leaf ∈ clause, leaf.IsAtom)
    : peakBehind (· + ·) n (clauses.map conjunction) = n + clauses.length := by
  induction clauses generalizing n with
  | nil => rfl
  | cons clause clauses ih =>
    obtain ⟨hclause, hclauses⟩ := List.forall_mem_cons.mp h
    rw [List.map_cons, peakBehind, peak_conjunction hclause, clauseCount_conjunction hclause,
      ih (n + 1) hclauses, List.length_cons]
    omega

theorem normalize_conjunctions (limit : Nat) (h : ∀ clause ∈ clauses, ∀ leaf ∈ clause, leaf.IsAtom)
    : (any (clauses.map conjunction)).normalize limit
        =
      if clauses.length ≤ limit then .ok (any (clauses.map conjunction)) else .error ⟨limit⟩ := by
  rw [normalize_eq, distribution_conjunctions h, peak, peakBehind_conjunctions 0 h, Nat.zero_add]

/-! The canonical forms are the disjunctions of conjunctions of atoms. -/

theorem exists_isCanonicalClause (h : ∀ leaf ∈ clause, leaf.IsAtom)
    : ∃ leaves, conjunction clause = all leaves ∧ IsCanonicalClause leaves := by
  cases clause with
  | nil =>
    refine ⟨[always], rfl, List.cons_ne_nil always [], ?_, fun _ => rfl, ?_⟩
    . intro leaf hleaf
      rw [List.mem_singleton.mp hleaf]
      rfl
    . intro t ht
      cases List.mem_singleton.mp ht
  | cons leaf leaves =>
    refine ⟨leaf :: leaves, rfl, List.cons_ne_nil leaf leaves, ?_, ?_, ?_⟩
    . intro leaf hleaf
      exact (h leaf hleaf).isLeaf
    . intro halways
      cases h always halways
    . intro t ht
      exact h (test t) ht

theorem IsCanonicalClause.exists_conjunction {leaves : List Expression} (h : IsCanonicalClause leaves)
    : ∃ clause : Clause, (∀ leaf ∈ clause, leaf.IsAtom) ∧ all leaves = conjunction clause := by
  by_cases halways : always ∈ leaves
  . refine ⟨[], List.forall_mem_nil _, ?_⟩
    rw [h.always_alone halways]
    rfl
  . refine ⟨leaves, ?_, ?_⟩
    . intro leaf hleaf
      cases leaf with
      | test t => exact h.not_isChoice t hleaf
      | pointsAt => trivial
      | always => exact absurd hleaf halways
      | all | any => cases h.isLeaf _ hleaf
    . cases leaves with
      | nil => exact absurd rfl h.ne_nil
      | cons leaf leaves => rfl

theorem isCanonical_iff
    : n.IsCanonical
        ↔
      ∃ clauses : List Clause, (∀ clause ∈ clauses, ∀ leaf ∈ clause, leaf.IsAtom)
        ∧
      n = any (clauses.map conjunction) := by
  constructor
  . rintro ⟨parts, rfl, hparts⟩
    induction parts with
    | nil => exact ⟨[], List.forall_mem_nil _, rfl⟩
    | cons part parts ih =>
      obtain ⟨⟨leaves, rfl, hleaves⟩, hrest⟩ := List.forall_mem_cons.mp hparts
      obtain ⟨clause, hclause, hconjunction⟩ := hleaves.exists_conjunction
      obtain ⟨clauses, hclauses, heq⟩ := ih hrest
      injection heq with heq
      refine ⟨clause :: clauses, List.forall_mem_cons.mpr ⟨hclause, hclauses⟩, ?_⟩
      rw [hconjunction, heq, List.map_cons]
  . rintro ⟨clauses, hclauses, rfl⟩
    refine ⟨_, rfl, ?_⟩
    intro part hpart
    obtain ⟨clause, hclause, rfl⟩ := List.mem_map.mp hpart
    exact exists_isCanonicalClause (hclauses clause hclause)

theorem IsCanonical.isNormalized (h : n.IsCanonical) : n.isNormalized = true := by
  obtain ⟨parts, rfl, hparts⟩ := h
  refine List.all_eq_true.mpr ?_
  intro part hpart
  obtain ⟨leaves, rfl, hleaves⟩ := hparts part hpart
  exact List.all_eq_true.mpr hleaves.isLeaf

theorem conjunctions_of_normalize (h : e.normalize limit = .ok n)
    : n = any (e.distribution.map conjunction) ∧ e.distribution.length ≤ limit := by
  rw [normalize_eq] at h
  split at h
  . next hpeak =>
    injection h with h
    rw [length_distribution]
    exact ⟨h.symm, Nat.le_trans (clauseCount_le_peak e) hpeak⟩
  . cases h

/-- A filter is its own normal form if and only if it is canonical and has no more clauses than the limit
allows. -/
theorem normalize_eq_self_iff {parts : List Expression}
    : (any parts).normalize limit = .ok (any parts) ↔ (any parts).IsCanonical ∧ parts.length ≤ limit := by
  constructor
  . intro h
    obtain ⟨heq, hlength⟩ := conjunctions_of_normalize h
    refine ⟨isCanonical_iff.mpr ⟨_, isAtom_of_mem_distribution (any parts), heq⟩, ?_⟩
    injection heq with heq
    rw [heq, List.length_map]
    exact hlength
  . rintro ⟨hcanonical, hlength⟩
    obtain ⟨clauses, hclauses, heq⟩ := isCanonical_iff.mp hcanonical
    cases heq
    rw [List.length_map] at hlength
    rw [normalize_conjunctions limit hclauses, if_pos hlength]

/-- Normal forms are canonical, and for the limit that they were made for they are their own normal
forms. -/
theorem canonical_of_normalize (h : e.normalize limit = .ok n)
    : n.IsCanonical ∧ n.isNormalized = true ∧ n.normalize limit = .ok n := by
  obtain ⟨rfl, hlength⟩ := conjunctions_of_normalize h
  have hcanonical : (any (e.distribution.map conjunction)).IsCanonical :=
    isCanonical_iff.mpr ⟨_, isAtom_of_mem_distribution e, rfl⟩
  refine ⟨hcanonical, hcanonical.isNormalized, normalize_eq_self_iff.mpr ⟨hcanonical, ?_⟩⟩
  rw [List.length_map]
  exact hlength

-- The limit is the number of clauses, and one clause has nothing but the filter that always holds.
theorem canonical_of_normalize_of_any_record
    : anyRecord.normalize 5 = .ok (any anyRecordParts)
        ∧ (any anyRecordParts).IsCanonical
        ∧ (any anyRecordParts).isNormalized = true
        ∧ (any anyRecordParts).normalize 5 = .ok (any anyRecordParts) := by
  have h : anyRecord.normalize 5 = .ok (any anyRecordParts) := rfl
  exact ⟨h, canonical_of_normalize h⟩

end Expression

end ObjectStore
