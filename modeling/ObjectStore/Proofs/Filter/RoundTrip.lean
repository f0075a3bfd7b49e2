import ObjectStore.Proofs.Filter.Printer

/-!
This module proves that parsing undoes printing. From the tokens of a condition the parser puts the
same condition together again, by induction on the condition: a chain of parts is taken part by part,
in the same way for both connectives. Every condition that the parser returns has the shape that this
needs.
-/

namespace ObjectStore

namespace Condition

open Grammar Scanner

mutual

/-- The condition without its places in a text. -/
def withoutSpans : Condition → Condition
  | comparison field op placeholder =>
    comparison ⟨field.value, .none⟩ ⟨op.value, .none⟩ ⟨placeholder.value, .none⟩
  | all parts => all (partsWithoutSpans parts)
  | any parts => any (partsWithoutSpans parts)

def partsWithoutSpans : List Condition → List Condition
  | [] => []
  | part :: parts => part.withoutSpans :: partsWithoutSpans parts

end

/-- Conjunctions and disjunctions have two parts or more, and the first part is not of the same
kind. -/
inductive Flat : Condition → Prop where
  | comparison {field : Spanned String} {op : Spanned Operator} {placeholder : Spanned Nat}
    : Flat (comparison field op placeholder)
  | all {first second : Condition} {rest : List Condition} (hfirst : ∀ parts, first ≠ all parts)
    (hparts : ∀ part ∈ first :: second :: rest, part.Flat) : Flat (all (first :: second :: rest))
  | any {first second : Condition} {rest : List Condition} (hfirst : ∀ parts, first ≠ any parts)
    (hparts : ∀ part ∈ first :: second :: rest, part.Flat) : Flat (any (first :: second :: rest))

/-- A condition that the parser can return. -/
structure Printable (c : Condition) : Prop where
  flat : c.Flat
  named : Named c.comparisons
  numbered : c.comparisons.map Prod.snd = List.range c.placeholderCount

/-- The comparisons have the numbers from `n` on. -/
def NumberedFrom (n : Nat) (comparisons : List ((String × Operator) × Nat)) : Prop :=
  comparisons.map Prod.snd = List.range' n comparisons.length

theorem NumberedFrom.append {n : Nat} {xs ys : List ((String × Operator) × Nat)}
    (h : NumberedFrom n (xs ++ ys)) : NumberedFrom n xs ∧ NumberedFrom (n + xs.length) ys := by
  unfold NumberedFrom at *
  rw [List.map_append, List.length_append, ← List.range'_append_1] at h
  exact List.append_inj h (by simp)

/-! From the tokens of a condition the same condition is put together. -/

theorem partsWithoutSpans_eq_map (parts : List Condition)
    : partsWithoutSpans parts = parts.map withoutSpans := by
  induction parts with
  | nil => rfl
  | cons part parts ih => rw [partsWithoutSpans, ih, List.map_cons]

theorem withoutSpans_andAlso (left right : Condition)
    : (left.andAlso right).withoutSpans = left.withoutSpans.andAlso right.withoutSpans := by
  cases left <;> simp [andAlso, withoutSpans, partsWithoutSpans_eq_map]

theorem withoutSpans_orElse (left right : Condition)
    : (left.orElse right).withoutSpans = left.withoutSpans.orElse right.withoutSpans := by
  cases left <;> simp [orElse, withoutSpans, partsWithoutSpans_eq_map]

theorem foldl_andAlso {first : Condition} (h : ∀ parts, first ≠ all parts) (second : Condition)
    (rest : List Condition)
    : (second :: rest).foldl andAlso first = all (first :: second :: rest) := by
  have hfold : ∀ parts rest : List Condition, rest.foldl andAlso (all parts) = all (parts ++ rest) := by
    intro parts rest
    induction rest generalizing parts with
    | nil => simp
    | cons part rest ih => rw [List.foldl_cons, andAlso, ih, List.append_assoc, List.singleton_append]
  cases first with
  | all parts => exact absurd rfl (h parts)
  | _ => exact hfold _ rest

theorem foldl_orElse {first : Condition} (h : ∀ parts, first ≠ any parts) (second : Condition)
    (rest : List Condition)
    : (second :: rest).foldl orElse first = any (first :: second :: rest) := by
  have hfold : ∀ parts rest : List Condition, rest.foldl orElse (any parts) = any (parts ++ rest) := by
    intro parts rest
    induction rest generalizing parts with
    | nil => simp
    | cons part rest ih => rw [List.foldl_cons, orElse, ih, List.append_assoc, List.singleton_append]
  cases first with
  | any parts => exact absurd rfl (h parts)
  | _ => exact hfold _ rest

/-- What a reader takes from which answers, with what it leaves of them. -/
abbrev Reading := ReadState → List LexAnswer → Condition → ReadState → List LexAnswer → Prop

/-- A reader of a chain of parts with a connective between each two of them, with the readers of a
part and of what follows the first one. -/
structure ChainReading where
  connective : Token
  put : Condition → Condition → Condition
  Part : Reading
  Tail : Condition → Reading
  Chain : Reading
  /-- What may stand behind a part. -/
  Follows : List LexAnswer → Prop
  follows_connective : ∀ {span rest}, Follows (.ok ⟨connective, span⟩ :: rest)
  withoutSpans_put : ∀ left right, (put left right).withoutSpans = put left.withoutSpans right.withoutSpans
  tail_of_ends : ∀ {left st answers}, Ends connective answers → Tail left st answers left st answers
  tail_of_part : ∀ {left right c st st₁ st' span answers rest₁ rest}, Part st answers right st₁ rest₁
    → Tail (put left right) st₁ rest₁ c st' rest
    → Tail left st (.ok ⟨connective, span⟩ :: answers) c st' rest
  chain_of_part : ∀ {left c st st₁ st' answers rest₁ rest}, Part st answers left st₁ rest₁
    → Tail left st₁ rest₁ c st' rest → Chain st answers c st' rest

def andReading : ChainReading where
  connective := .and
  put := andAlso
  Part st answers c st' rest := Takes (takeTerm st answers) c st' rest
  Tail left st answers c st' rest := Takes (takeAndTail st left answers) c st' rest
  Chain st answers c st' rest := Takes (takeAnd st answers) c st' rest
  Follows _ := True
  follows_connective := trivial
  withoutSpans_put := withoutSpans_andAlso
  tail_of_ends := takes_takeAndTail_of_ends
  tail_of_part hpart htail := takes_takeAndTail_and.mpr ⟨_, _, _, hpart, htail⟩
  chain_of_part hpart htail := takes_takeAnd.mpr ⟨_, _, _, hpart, htail⟩

def orReading : ChainReading where
  connective := .or
  put := orElse
  Part st answers c st' rest := Takes (takeAnd st answers) c st' rest
  Tail left st answers c st' rest := Takes (takeExprTail st left answers) c st' rest
  Chain st answers c st' rest := Takes (takeExpr st answers) c st' rest
  Follows := Ends .and
  follows_connective := by unfold Ends; simp
  withoutSpans_put := withoutSpans_orElse
  tail_of_ends := takes_takeExprTail_of_ends
  tail_of_part hpart htail := takes_takeExprTail_or.mpr ⟨_, _, _, hpart, htail⟩
  chain_of_part hpart htail := takes_takeExpr.mpr ⟨_, _, _, hpart, htail⟩

/-- From certain tokens a reader takes a certain condition, apart from places in the text. -/
def Reading.Recovers (reading : Reading) (Follows : List LexAnswer → Prop) (c : Condition)
    (tokens : List Token) : Prop :=
  ∀ (st : ReadState) (front rest : List LexAnswer),
    Spells front tokens → NumberedFrom st.placeholders c.comparisons → Follows rest
      →
    ∃ c' st', reading st (front ++ rest) c' st' rest ∧ c'.withoutSpans = c.withoutSpans
      ∧ st'.placeholders = st.placeholders + c.comparisons.length

namespace ChainReading

variable (r : ChainReading)

theorem follows_tail {parts : List Condition} {front rest : List LexAnswer}
    (h : Spells front (parts.flatMap fun part => r.connective :: part.tokensAsPart))
    (hfollows : r.Follows rest) : r.Follows (front ++ rest) := by
  cases parts with
  | nil =>
    rw [spells_nil.mp h]
    exact hfollows
  | cons part parts =>
    obtain ⟨span, front, rfl, -⟩ := spells_cons.mp h
    exact r.follows_connective

theorem withoutSpans_foldl (left : Condition) (parts : List Condition)
    : (parts.foldl r.put left).withoutSpans
        =
      (parts.map withoutSpans).foldl r.put left.withoutSpans := by
  induction parts generalizing left with
  | nil => rfl
  | cons part parts ih => rw [List.foldl_cons, ih, r.withoutSpans_put, List.map_cons, List.foldl_cons]

theorem recovers_tail {parts : List Condition}
    (hparts : ∀ part ∈ parts, r.Part.Recovers r.Follows part part.tokensAsPart)
    (left : Condition) (st : ReadState) (front rest : List LexAnswer)
    (h : Spells front (parts.flatMap fun part => r.connective :: part.tokensAsPart))
    (hnumbers : NumberedFrom st.placeholders (partComparisons parts))
    (hfollows : r.Follows rest) (hends : Ends r.connective rest)
    : ∃ c st', r.Tail left st (front ++ rest) c st' rest
        ∧ c.withoutSpans = (parts.foldl r.put left).withoutSpans
        ∧ st'.placeholders = st.placeholders + (partComparisons parts).length := by
  induction parts generalizing left st front with
  | nil =>
    rw [spells_nil.mp h]
    exact ⟨left, st, r.tail_of_ends hends, rfl, rfl⟩
  | cons part parts ih =>
    rw [List.forall_mem_cons] at hparts
    obtain ⟨hfirst, hrest⟩ := hnumbers.append
    rw [List.flatMap_cons] at h
    obtain ⟨chunk, back, rfl, hchunk, hback⟩ := spells_append.mp h
    obtain ⟨span, front, rfl, hfront⟩ := spells_cons.mp hchunk
    obtain ⟨right, st₁, hright, hsame, hst₁⟩ :=
      hparts.1 st front (back ++ rest) hfront hfirst (r.follows_tail hback hfollows)
    rw [← hst₁] at hrest
    obtain ⟨c, st', htail, hc, hst'⟩ := ih hparts.2 (r.put left right) st₁ back hback hrest
    refine ⟨c, st', ?_, ?_, ?_⟩
    . rw [List.append_assoc]
      exact r.tail_of_part hright htail
    . rw [hc, r.withoutSpans_foldl, r.withoutSpans_put, hsame, ← r.withoutSpans_put,
        ← r.withoutSpans_foldl, List.foldl_cons]
    . rw [hst', hst₁, partComparisons, List.length_append, Nat.add_assoc]

theorem intercalate_tokens (first : Condition) (parts : List Condition)
    : List.intercalate [r.connective] (partTokens (first :: parts))
        =
      first.tokensAsPart ++ parts.flatMap fun part => r.connective :: part.tokensAsPart := by
  rw [partTokens_eq_map]
  induction parts generalizing first with
  | nil => simp
  | cons part parts ih =>
    rw [List.map_cons, List.map_cons, List.intercalate_cons_cons, ← List.map_cons, ih]
    simp

theorem recovers_chain {c first : Condition} {parts : List Condition}
    (hc : c = parts.foldl r.put first)
    (hcomparisons : c.comparisons = partComparisons (first :: parts))
    (hparts : ∀ part ∈ first :: parts, r.Part.Recovers r.Follows part part.tokensAsPart)
    : r.Chain.Recovers (fun rest => r.Follows rest ∧ Ends r.connective rest) c
        (List.intercalate [r.connective] (partTokens (first :: parts))) := by
  intro st front rest hfront hnumbers hrest
  obtain ⟨hfollows, hends⟩ := hrest
  rw [List.forall_mem_cons] at hparts
  rw [hcomparisons] at hnumbers ⊢
  rw [r.intercalate_tokens] at hfront
  obtain ⟨front, back, rfl, hfront, hback⟩ := spells_append.mp hfront
  obtain ⟨hfirst, hmore⟩ := hnumbers.append
  obtain ⟨left, st₁, hleft, hsame, hst₁⟩ :=
    hparts.1 st front (back ++ rest) hfront hfirst (r.follows_tail hback hfollows)
  rw [← hst₁] at hmore
  obtain ⟨c', st', htail, hc', hst'⟩ :=
    r.recovers_tail hparts.2 left st₁ back rest hback hmore hfollows hends
  refine ⟨c', st', ?_, ?_, ?_⟩
  . rw [List.append_assoc]
    exact r.chain_of_part hleft htail
  . rw [hc', r.withoutSpans_foldl, hsame, ← r.withoutSpans_foldl, hc]
  . rw [hst', hst₁, partComparisons, List.length_append, Nat.add_assoc]

theorem recovers_alone {c : Condition} {tokens : List Token}
    (h : r.Part.Recovers r.Follows c tokens)
    : r.Chain.Recovers (fun rest => r.Follows rest ∧ Ends r.connective rest) c tokens := by
  intro st front rest hfront hnumbers hrest
  obtain ⟨c', st', hpart, hsame, hst'⟩ := h st front rest hfront hnumbers hrest.1
  exact ⟨c', st', r.chain_of_part hpart (r.tail_of_ends hrest.2), hsame, hst'⟩

end ChainReading

theorem Reading.Recovers.follows {reading : Reading} {Follows Follows' : List LexAnswer → Prop}
    {tokens : List Token} (h : reading.Recovers Follows c tokens)
    (himp : ∀ rest, Follows' rest → Follows rest) : reading.Recovers Follows' c tokens := by
  intro st front rest hfront hnumbers hrest
  exact h st front rest hfront hnumbers (himp rest hrest)

theorem recovers_comparison {field : Spanned String} {op : Spanned Operator}
    {placeholder : Spanned Nat}
    : andReading.Part.Recovers andReading.Follows (comparison field op placeholder)
        (comparison field op placeholder).tokensAsPart := by
  intro st front rest hspells hnumbers _
  obtain ⟨span, front₁, rfl, h₁⟩ := spells_cons.mp hspells
  obtain ⟨span', front₂, rfl, h₂⟩ := spells_cons.mp h₁
  obtain ⟨span'', front₃, rfl, h₃⟩ := spells_cons.mp h₂
  rw [spells_nil.mp h₃]
  have hnumber : placeholder.value = st.placeholders := by
    unfold NumberedFrom at hnumbers
    exact List.head_eq_of_cons_eq hnumbers
  refine ⟨_, _, takes_takeTerm_comparison.mpr (takes_takeComparison.mpr
    ⟨⟨op.value, span'⟩, span'', rfl, rfl, rfl⟩), ?_, rfl⟩
  unfold withoutSpans
  rw [hnumber]

/-- The reading of a whole condition, which ends at a parenthesis or with the text. -/
def RecoversWhole (c : Condition) : Prop :=
  orReading.Chain.Recovers (fun rest => Ends .and rest ∧ Ends .or rest) c c.tokens

theorem recovers_parentheses (hc : c.isComparison = false) (h : RecoversWhole c)
    : andReading.Part.Recovers andReading.Follows c c.tokensAsPart := by
  intro st front rest hspells hnumbers _
  unfold tokensAsPart at hspells
  rw [if_neg (by simp [hc])] at hspells
  obtain ⟨span, inside, rfl, hinside⟩ := spells_cons.mp hspells
  obtain ⟨front, close, rfl, hfront, hclose⟩ := spells_append.mp hinside
  obtain ⟨span', back, rfl, hback⟩ := spells_cons.mp hclose
  rw [spells_nil.mp hback, List.cons_append, List.append_assoc]
  obtain ⟨c', st', hinner, hsame, hst'⟩ := h st front (.ok ⟨.rightParen, span'⟩ :: rest) hfront
    hnumbers ⟨by unfold Ends; simp, by unfold Ends; simp⟩
  exact ⟨c', st', takes_takeTerm_group.mpr ⟨span', hinner⟩, hsame, hst'⟩

theorem Flat.recovers {c : Condition} (h : c.Flat)
    : andReading.Part.Recovers andReading.Follows c c.tokensAsPart ∧ RecoversWhole c := by
  induction h with
  | comparison =>
    refine ⟨recovers_comparison, orReading.recovers_alone ?_⟩
    exact (andReading.recovers_alone recovers_comparison).follows fun rest h => ⟨trivial, h⟩
  | @all first second rest hfirst hparts ih =>
    have hchain := andReading.recovers_chain (foldl_andAlso hfirst second rest).symm rfl
      fun part hpart => (ih part hpart).1
    have hwhole : RecoversWhole (Condition.all (first :: second :: rest)) :=
      orReading.recovers_alone (hchain.follows fun rest h => ⟨trivial, h⟩)
    exact ⟨recovers_parentheses rfl hwhole, hwhole⟩
  | @any first second rest hfirst hparts ih =>
    have hwhole : RecoversWhole (Condition.any (first :: second :: rest)) :=
      orReading.recovers_chain (foldl_orElse hfirst second rest).symm rfl fun part hpart =>
        (andReading.recovers_alone (ih part hpart).1).follows fun rest h => ⟨trivial, h⟩
    exact ⟨recovers_parentheses rfl hwhole, hwhole⟩

theorem Printable.parse_text {c : Condition} (h : c.Printable)
    : ∃ c', parse c.text = .ok c' ∧ c'.withoutSpans = c.withoutSpans := by
  have hspells := spells_of_splitsInto (splitsInto_text c h.named)
  have hnumbers : NumberedFrom 0 c.comparisons := by
    unfold NumberedFrom
    rw [h.numbered, placeholderCount_eq, List.range_eq_range']
  obtain ⟨c', st', htakes, hsame, -⟩ := h.flat.recovers.2 ⟨c.text.utf8ByteSize, 0⟩ (lexAnswers c.text)
    [] hspells hnumbers ⟨trivial, trivial⟩
  rw [List.append_nil] at htakes
  exact ⟨c', ofAnswers_eq_ok.mpr ⟨st', htakes⟩, hsame⟩

/-! What the parser returns has the shape that printing needs. -/

theorem Flat.andAlso {left right : Condition} (hleft : left.Flat) (hright : right.Flat)
    : (left.andAlso right).Flat := by
  by_cases hall : ∃ parts, left = .all parts
  . obtain ⟨parts, rfl⟩ := hall
    cases hleft with
    | @all first second rest hfirst hparts =>
      have hmore : ∀ part ∈ (first :: second :: rest) ++ [right], part.Flat :=
        List.forall_mem_append.mpr ⟨hparts, List.forall_mem_singleton.mpr hright⟩
      exact .all hfirst hmore
  . have hfirst : ∀ parts, left ≠ .all parts := fun parts h => hall ⟨parts, h⟩
    have hpair : left.andAlso right = .all [left, right] := foldl_andAlso hfirst right []
    rw [hpair]
    exact .all hfirst (by simp [hleft, hright])

theorem Flat.orElse {left right : Condition} (hleft : left.Flat) (hright : right.Flat)
    : (left.orElse right).Flat := by
  by_cases hany : ∃ parts, left = .any parts
  . obtain ⟨parts, rfl⟩ := hany
    cases hleft with
    | @any first second rest hfirst hparts =>
      have hmore : ∀ part ∈ (first :: second :: rest) ++ [right], part.Flat :=
        List.forall_mem_append.mpr ⟨hparts, List.forall_mem_singleton.mpr hright⟩
      exact .any hfirst hmore
  . have hfirst : ∀ parts, left ≠ .any parts := fun parts h => hany ⟨parts, h⟩
    have hpair : left.orElse right = .any [left, right] := foldl_orElse hfirst right []
    rw [hpair]
    exact .any hfirst (by simp [hleft, hright])

mutual

theorem flat_of_takes_term {st st' : ReadState} {answers rest : List LexAnswer} {c : Condition}
    (h : Takes (takeTerm st answers) c st' rest) : c.Flat := by
  obtain ⟨span, answers', rfl⟩ | ⟨name, span, answers', rfl⟩ := opening_of_takes_takeTerm h
  . obtain ⟨span', hinner⟩ := takes_takeTerm_group.mp h
    exact flat_of_takes_expr hinner
  . obtain ⟨op, span', -, rfl, -⟩ := takes_takeComparison.mp (takes_takeTerm_comparison.mp h)
    exact .comparison
termination_by (answers.length, 0)

theorem flat_of_takes_and {st st' : ReadState} {answers rest : List LexAnswer} {c : Condition}
    (h : Takes (takeAnd st answers) c st' rest) : c.Flat := by
  obtain ⟨left, st₁, rest₁, hleft, htail⟩ := takes_takeAnd.mp h
  have hlt := hleft.length_lt
  have hflat := flat_of_takes_term hleft
  exact flat_of_takes_and_tail hflat htail
termination_by (answers.length, 1)

theorem flat_of_takes_and_tail {st st' : ReadState} {answers rest : List LexAnswer}
    {c left : Condition} (hleft : left.Flat) (h : Takes (takeAndTail st left answers) c st' rest)
    : c.Flat := by
  obtain ⟨span, answers', hanswers⟩ | ⟨rfl, -⟩ := connective_of_takes_takeAndTail h
  . have hlength : answers'.length < answers.length := by
      rw [hanswers]
      exact Nat.lt_succ_self _
    rw [hanswers] at h
    obtain ⟨right, st₁, rest₁, hright, htail⟩ := takes_takeAndTail_and.mp h
    have hlt := Nat.lt_trans hright.length_lt hlength
    have hflat := flat_of_takes_term hright
    exact flat_of_takes_and_tail (hleft.andAlso hflat) htail
  . exact hleft
termination_by (answers.length, 2)

theorem flat_of_takes_expr {st st' : ReadState} {answers rest : List LexAnswer} {c : Condition}
    (h : Takes (takeExpr st answers) c st' rest) : c.Flat := by
  obtain ⟨left, st₁, rest₁, hleft, htail⟩ := takes_takeExpr.mp h
  have hlt := hleft.length_lt
  have hflat := flat_of_takes_and hleft
  exact flat_of_takes_expr_tail hflat htail
termination_by (answers.length, 3)

theorem flat_of_takes_expr_tail {st st' : ReadState} {answers rest : List LexAnswer}
    {c left : Condition} (hleft : left.Flat) (h : Takes (takeExprTail st left answers) c st' rest)
    : c.Flat := by
  obtain ⟨span, answers', hanswers⟩ | ⟨rfl, -⟩ := connective_of_takes_takeExprTail h
  . have hlength : answers'.length < answers.length := by
      rw [hanswers]
      exact Nat.lt_succ_self _
    rw [hanswers] at h
    obtain ⟨right, st₁, rest₁, hright, htail⟩ := takes_takeExprTail_or.mp h
    have hlt := Nat.lt_trans hright.length_lt hlength
    have hflat := flat_of_takes_and hright
    exact flat_of_takes_expr_tail (hleft.orElse hflat) htail
  . exact hleft
termination_by (answers.length, 4)

end

mutual

theorem infix_of_mem_disjunction {name : String} {op : Operator} (d : Disjunction)
    (h : (name, op) ∈ d.comparisons)
    : [.identifier name, .operator op, .placeholder] <:+: d.tokens := by
  cases d with
  | last c => exact infix_of_mem_conjunction c h
  | or c rest =>
    unfold Disjunction.comparisons at h
    unfold Disjunction.tokens
    obtain h | h := List.mem_append.mp h
    . exact List.infix_append_of_infix_left (infix_of_mem_conjunction c h)
    . exact List.infix_append_of_infix_right (List.infix_cons (infix_of_mem_disjunction rest h))

theorem infix_of_mem_conjunction {name : String} {op : Operator} (d : Conjunction)
    (h : (name, op) ∈ d.comparisons)
    : [.identifier name, .operator op, .placeholder] <:+: d.tokens := by
  cases d with
  | last t => exact infix_of_mem_term t h
  | and t rest =>
    unfold Conjunction.comparisons at h
    unfold Conjunction.tokens
    obtain h | h := List.mem_append.mp h
    . exact List.infix_append_of_infix_left (infix_of_mem_term t h)
    . exact List.infix_append_of_infix_right (List.infix_cons (infix_of_mem_conjunction rest h))

theorem infix_of_mem_term {name : String} {op : Operator} (t : Term)
    (h : (name, op) ∈ t.comparisons)
    : [.identifier name, .operator op, .placeholder] <:+: t.tokens := by
  cases t with
  | group d =>
    exact List.infix_cons (List.infix_append_of_infix_left (infix_of_mem_disjunction d h))
  | comparison name' op' =>
    cases List.mem_singleton.mp h
    exact List.infix_rfl

end

theorem reads_of_parse {source : String} {c : Condition} (h : parse source = .ok c)
    : ∃ d : Disjunction, Spells (lexAnswers source) d.tokens
        ∧ c.comparisons = d.comparisons.zipIdx := by
  obtain ⟨tokens, htokens, d, hd⟩ := derivation_of_parse h
  obtain ⟨c', hc', hreads⟩ := parse_of_derivation htokens hd
  cases hc'.symm.trans h
  exact ⟨d, spells_iff.mpr ⟨tokens, tokenize_eq_ok.mp htokens, hd⟩, hreads.comparisons⟩

theorem adjacent_of_infix {answers : List LexAnswer} {first second : Token}
    {more tokens : List Token} (h : Spells answers tokens) (hwithin : first :: second :: more <:+: tokens)
    : ∃ span span' front back,
        answers = front ++ .ok ⟨first, span⟩ :: .ok ⟨second, span'⟩ :: back := by
  obtain ⟨before, after, rfl⟩ := hwithin
  rw [List.append_assoc] at h
  obtain ⟨front, back, rfl, -, hback⟩ := spells_append.mp h
  obtain ⟨span, back₁, rfl, hback₁⟩ := spells_cons.mp hback
  obtain ⟨span', back₂, rfl, -⟩ := spells_cons.mp hback₁
  exact ⟨span, span', front, back₂, rfl⟩

theorem named_of_parse {source : String} {c : Condition} (h : parse source = .ok c)
    : Named c.comparisons := by
  obtain ⟨d, hspells, hcomparisons⟩ := reads_of_parse h
  have hanswers : lexAnswers source = joinWords (ofText source.toList).pieces :=
    answers_eq_joinWords _
  have hnames : NamesFields (lexAnswers source) := by
    rw [hanswers]
    exact namesFields_joinWords _ (namesFields_pieces _ rfl)
  have hapart : KeepsNotIn (lexAnswers source) := by
    rw [hanswers]
    exact keepsNotIn_joinWords _
  intro x hx
  rw [hcomparisons] at hx
  obtain ⟨span, span', front, back, hlex⟩ :=
    adjacent_of_infix hspells (infix_of_mem_disjunction d (List.fst_mem_of_mem_zipIdx hx))
  constructor
  . apply hnames (.ok ⟨.identifier x.1.1, span⟩) _ _ rfl
    rw [hlex]
    simp
  . rintro ⟨hname, hop⟩
    unfold KeepsNotIn at hapart
    rw [hlex] at hapart
    have hpair := (List.isChain_cons_cons.mp hapart.right_of_append).1
    apply hpair
    rw [hname, hop]
    exact ⟨rfl, rfl⟩

theorem numbered_of_parse {source : String} {c : Condition} (h : parse source = .ok c)
    : c.comparisons.map Prod.snd = List.range c.placeholderCount := by
  obtain ⟨d, -, hcomparisons⟩ := reads_of_parse h
  rw [placeholderCount_eq, hcomparisons, List.zipIdx_map_snd, List.length_zipIdx,
    List.range_eq_range']

theorem printable_of_parse {source : String} {c : Condition} (h : parse source = .ok c)
    : c.Printable := by
  obtain ⟨st, htakes⟩ := ofAnswers_eq_ok.mp h
  exact ⟨flat_of_takes_expr htakes, named_of_parse h, numbered_of_parse h⟩

/-- The text of a condition is parsed to the same condition, apart from places in the text, if the
parser can return the condition at all; and these conditions are the printable ones. -/
theorem parse_undoes_text
    : (∀ c : Condition, c.Printable → ∃ c', parse c.text = .ok c' ∧ c'.withoutSpans = c.withoutSpans)
        ∧
      ∀ (source : String) (c : Condition), parse source = .ok c → c.Printable := by
  constructor
  . intro c hc
    exact hc.parse_text
  . intro source c hc
    exact printable_of_parse hc

/-- Fields with the names `not`, `starts` and `with` beside the operators `not in` and `starts with`. -/
def wordyCondition : Condition :=
  .any [.all [.comparison ⟨"not", .none⟩ ⟨.notIn, .none⟩ ⟨0, .none⟩,
      .any [.comparison ⟨"starts", .none⟩ ⟨.startsWith, .none⟩ ⟨1, .none⟩,
        .comparison ⟨"with", .none⟩ ⟨.eq, .none⟩ ⟨2, .none⟩]],
    .comparison ⟨"starts", .none⟩ ⟨.isIn, .none⟩ ⟨3, .none⟩]

theorem parse_undoes_text_of_words
    : wordyCondition.text = "(not not in ? and (starts starts with ? or with = ?)) or starts in ?"
        ∧ wordyCondition.Printable
        ∧ ∃ c, parse wordyCondition.text = .ok c
          ∧ c.withoutSpans = wordyCondition.withoutSpans ∧ c.Printable := by
  have hprintable : wordyCondition.Printable := by
    constructor
    . refine .any (by simp) (List.forall_mem_cons.mpr ⟨?_, by simp [Flat.comparison]⟩)
      refine .all (by simp) (List.forall_mem_cons.mpr ⟨.comparison, ?_⟩)
      refine List.forall_mem_singleton.mpr (.any (by simp) ?_)
      simp [Flat.comparison]
    . unfold Named
      decide
    . decide
  obtain ⟨c, hc, hsame⟩ := parse_undoes_text.1 wordyCondition hprintable
  exact ⟨by decide +kernel, hprintable, c, hc, hsame, parse_undoes_text.2 _ c hc⟩

end Condition

end ObjectStore
