import ObjectStore.Proofs.Filter.Pieces

/-!
This module prints conditions and proves that the text of a condition is split into its tokens again,
whatever words its fields have as their names.
-/

namespace ObjectStore

namespace Condition

open Grammar Scanner

def isComparison : Condition → Bool
  | comparison .. => true
  | _ => false

mutual

/-- A comparison is printed as name, operator and `?`, and each part that is not a comparison in
parentheses. -/
def text : Condition → String
  | comparison field op _ => field.value ++ " " ++ op.value.spelling ++ " ?"
  | all parts => " and ".intercalate (partTexts parts)
  | any parts => " or ".intercalate (partTexts parts)

def partTexts : List Condition → List String
  | [] => []
  | part :: parts =>
    (if part.isComparison then part.text else "(" ++ part.text ++ ")") :: partTexts parts

end

mutual

/-- The tokens of the text. -/
def tokens : Condition → List Token
  | comparison field op _ => [.identifier field.value, .operator op.value, .placeholder]
  | all parts => List.intercalate [.and] (partTokens parts)
  | any parts => List.intercalate [.or] (partTokens parts)

def partTokens : List Condition → List (List Token)
  | [] => []
  | part :: parts =>
    (if part.isComparison then part.tokens else .leftParen :: (part.tokens ++ [.rightParen]))
      :: partTokens parts

end

/-- The comparisons have names of fields, and none could be taken for the operator `not in`. -/
def Named (comparisons : List ((String × Operator) × Nat)) : Prop :=
  ∀ x ∈ comparisons, isFieldName x.1.1 = true ∧ ¬(x.1.1 = "not" ∧ x.1.2 = .isIn)

/-- The tokens of a part of another condition. -/
def tokensAsPart (c : Condition) : List Token :=
  if c.isComparison then c.tokens else .leftParen :: (c.tokens ++ [.rightParen])

theorem partTokens_eq_map (parts : List Condition) : partTokens parts = parts.map tokensAsPart := by
  induction parts with
  | nil => rfl
  | cons part parts ih =>
    rw [partTokens, ih]
    rfl

theorem splitsInto_answers {cs : List Char} {words tokens : List Token}
    (h : SplitsInto pieces cs words)
    (hjoin : ∀ front, Spells front words
      → ∃ front', Spells front' tokens ∧ ∀ rest, joinWords (front ++ rest) = front' ++ joinWords rest)
    : SplitsInto answers cs tokens := by
  intro offset rest
  obtain ⟨front, offset', hpieces, hspells⟩ := h offset rest
  obtain ⟨front', hspells', hfront'⟩ := hjoin front hspells
  refine ⟨front', offset', ?_, hspells'⟩
  rw [answers_eq_joinWords, hpieces, hfront', answers_eq_joinWords]

theorem splitsInto_alone {cs : List Char} {token : Token} (h : SplitsInto pieces cs [token])
    (hpair : token.pairing? = none) : SplitsInto answers cs [token] := by
  apply splitsInto_answers h
  intro front hfront
  refine ⟨front, hfront, ?_⟩
  obtain ⟨span, front, rfl, hrest⟩ := spells_cons.mp hfront
  rw [spells_nil.mp hrest]
  intro rest
  exact joinWords_alone hpair

theorem spells_of_splitsInto {source : String} {tokens : List Token}
    (h : SplitsInto answers source.toList tokens) : Spells (lexAnswers source) tokens := by
  obtain ⟨front, offset, hanswers, hspells⟩ := h 0 []
  have hend : answers ⟨[], offset, none⟩ = [] := answers_of_none rfl
  rw [List.append_nil, hend, List.append_nil] at hanswers
  unfold lexAnswers ofText
  rw [hanswers]
  exact hspells

theorem splitsInto_symbol {c : Char} {token : Token} (hblank : isFilterBlank c = false)
    (h : ∀ rest, lexeme c rest = ⟨some token, []⟩) (hpair : token.pairing? = none)
    : SplitsInto answers [c] [token] :=
  splitsInto_alone (splitsInto_of_lexeme hblank h) hpair

theorem splitsInto_connective (word : String) {token : Token} (h : isWord word = true)
    (hword : Token.ofWord word = token) (hpair : token.pairing? = none)
    : SplitsInto answers (' ' :: word.toList ++ [' ']) [token] := by
  rw [← hword] at hpair ⊢
  exact splitsInto_alone (splitsInto_blank.append (splitsInto_word word h)) hpair

theorem joinWords_operator (op : Operator) {front : List LexAnswer}
    (h : Spells front (operatorWords op))
    : ∃ span, ∀ rest, joinWords (front ++ rest) = .ok ⟨.operator op, span⟩ :: joinWords rest := by
  cases op with
  | startsWith | notIn =>
    obtain ⟨span, front, rfl, hfront⟩ := spells_cons.mp h
    obtain ⟨span', front, rfl, hrest⟩ := spells_cons.mp hfront
    rw [spells_nil.mp hrest]
    exact ⟨span.merge span', fun rest => joinWords_pair _ rfl⟩
  | _ =>
    obtain ⟨span, front, rfl, hrest⟩ := spells_cons.mp h
    rw [spells_nil.mp hrest]
    exact ⟨span, fun rest => joinWords_alone rfl⟩

theorem head_operatorWords {name : String} {op op' : Operator} {word : Token}
    (hnot : ¬(name = "not" ∧ op = .isIn))
    (hpair : Token.pairing? (.identifier name) = some (op', word))
    : (operatorWords op).head? ≠ some word := by
  unfold Token.pairing? at hpair
  split at hpair
  . cases hpair
    cases op <;> simp [operatorWords]
  . next hname =>
    cases hpair
    cases hname
    cases op <;> simp_all [operatorWords]
  . cases hpair

theorem joinWords_name {name : String} {op : Operator} {span : Span} {front : List LexAnswer}
    (hnot : ¬(name = "not" ∧ op = .isIn)) (h : Spells front (operatorWords op)) (rest : List LexAnswer)
    : joinWords (.ok ⟨.identifier name, span⟩ :: front ++ rest)
        =
      .ok ⟨.identifier name, span⟩ :: joinWords (front ++ rest) := by
  cases hwords : operatorWords op with
  | nil => cases op <;> cases hwords
  | cons word words =>
    rw [hwords] at h
    obtain ⟨span', front, rfl, -⟩ := spells_cons.mp h
    apply joinWords_apart
    intro op' word' hpair hword
    apply head_operatorWords hnot hpair
    rw [hwords, ← hword]
    rfl

theorem splitsInto_comparison {name : String} {op : Operator} (hname : isFieldName name = true)
    (hnot : ¬(name = "not" ∧ op = .isIn))
    : SplitsInto answers (name.toList ++ [' '] ++ (op.spelling.toList ++ [' ']) ++ ['?'])
        [.identifier name, .operator op, .placeholder] := by
  have hsymbol : SplitsInto answers ['?'] [.placeholder] :=
    splitsInto_symbol (by decide) (fun rest => rfl) rfl
  have hwords : SplitsInto answers (name.toList ++ [' '] ++ (op.spelling.toList ++ [' ']))
      [.identifier name, .operator op] := by
    apply splitsInto_answers ((splitsInto_name hname).append (splitsInto_operator op))
    intro front hfront
    obtain ⟨span, front, rfl, hrest⟩ := spells_cons.mp hfront
    obtain ⟨span', hop⟩ := joinWords_operator op hrest
    refine ⟨[.ok ⟨.identifier name, span⟩, .ok ⟨.operator op, span'⟩], rfl, ?_⟩
    intro rest
    rw [joinWords_name hnot hrest, hop]
    rfl
  exact hwords.append hsymbol

theorem Named.append {xs ys : List ((String × Operator) × Nat)}
    : Named (xs ++ ys) ↔ Named xs ∧ Named ys :=
  List.forall_mem_append

theorem splitsInto_intercalate {separator : List Char} {connective : Token}
    (hseparator : SplitsInto answers separator [connective])
    {texts : List (List Char)} {tokens : List (List Token)}
    (h : List.Forall₂ (SplitsInto answers) texts tokens)
    : SplitsInto answers (List.intercalate separator texts) (List.intercalate [connective] tokens) := by
  induction h with
  | nil => exact splitsInto_nil
  | @cons text tokens texts tokenss hfirst hrest ih =>
    cases hrest with
    | nil =>
      rw [List.intercalate_singleton, List.intercalate_singleton]
      exact hfirst
    | cons hsecond hrest =>
      rw [List.intercalate_cons_cons, List.intercalate_cons_cons]
      exact (hfirst.append hseparator).append ih

theorem splitsInto_parentheses {cs : List Char} {tokens : List Token}
    (h : SplitsInto answers cs tokens)
    : SplitsInto answers ('(' :: cs ++ [')']) (.leftParen :: (tokens ++ [.rightParen])) := by
  have hleft : SplitsInto answers ['('] [.leftParen] :=
    splitsInto_symbol (by decide) (fun rest => rfl) rfl
  have hright : SplitsInto answers [')'] [.rightParen] :=
    splitsInto_symbol (by decide) (fun rest => rfl) rfl
  exact (hleft.append h).append hright

mutual

theorem splitsInto_text (c : Condition) (h : Named c.comparisons)
    : SplitsInto answers c.text.toList c.tokens := by
  cases c with
  | comparison field op placeholder =>
    obtain ⟨hname, hnot⟩ := h _ (List.mem_singleton_self _)
    unfold text tokens
    simpa using splitsInto_comparison hname hnot
  | all parts =>
    unfold text tokens
    rw [String.toList_intercalate]
    exact splitsInto_intercalate (splitsInto_connective "and" rfl rfl rfl)
      (splitsInto_partTexts parts h)
  | any parts =>
    unfold text tokens
    rw [String.toList_intercalate]
    exact splitsInto_intercalate (splitsInto_connective "or" rfl rfl rfl)
      (splitsInto_partTexts parts h)

theorem splitsInto_partTexts (parts : List Condition) (h : Named (partComparisons parts))
    : List.Forall₂ (SplitsInto answers) ((partTexts parts).map String.toList) (partTokens parts) := by
  cases parts with
  | nil => exact .nil
  | cons part parts =>
    obtain ⟨hpart, hparts⟩ := Named.append.mp h
    refine .cons ?_ (splitsInto_partTexts parts hparts)
    have hsplits := splitsInto_text part hpart
    split
    . exact hsplits
    . rw [String.toList_append, String.toList_append]
      exact splitsInto_parentheses hsplits

end

end Condition

end ObjectStore
