import Mathlib.Data.List.Chain
import ObjectStore.Proofs.Filter.Parser

/-!
This module proves that a text can be split in two stages: into its pieces, one after the other, and
then by putting the words of two-word operators together. What comes out of the first stage depends
only on the text from some place on, so that texts can be split part by part.
-/

namespace ObjectStore

namespace Scanner

/-- The pieces of the text, before words are put together. -/
def pieces (s : Scanner) : List LexAnswer :=
  match _h : s.nextPiece with
  | (none, _) => []
  | (some piece, s') => piece :: s'.pieces
termination_by s.size
decreasing_by exact size_nextPiece _h

/-- Puts the words of two-word operators together. -/
def joinWords : List LexAnswer → List LexAnswer
  | [] => []
  | .error e :: pieces => .error e :: joinWords pieces
  | .ok first :: pieces =>
    match first.value.pairing?, pieces with
    | some (op, word), .ok second :: rest =>
      if second.value = word then
        .ok ⟨.operator op, first.span.merge second.span⟩ :: joinWords rest
      else
        .ok first :: joinWords (.ok second :: rest)
    | some _, .error e :: rest => .error e :: joinWords rest
    | _, pieces => .ok first :: joinWords pieces
termination_by pieces => pieces.length

variable {s s' : Scanner} {first second : SpannedToken} {rest : List LexAnswer}

theorem pieces_of_none (h : s.nextPiece = (none, s')) : s.pieces = [] := by
  unfold pieces
  split <;> simp_all

theorem pieces_of_some {piece : LexAnswer} (h : s.nextPiece = (some piece, s'))
    : s.pieces = piece :: s'.pieces := by
  rw [pieces]
  split <;> simp_all

theorem pieces_of_end (h : s.nextPiece = (none, s')) : s'.pieces = [] := by
  have hpending : s'.pending = none := by simpa only [h] using pending_nextPiece s
  have hrest : s'.rest = [] := by
    unfold nextPiece at h
    split at h
    . cases h
    . next hrest =>
      cases h
      exact hrest
    . cases h
  have hnext : s'.nextPiece = (none, s'.skipBlanks) := by
    simp [nextPiece, skipBlanks, hpending, hrest]
  exact pieces_of_none hnext

theorem answers_of_none (h : s.next = (none, s')) : s.answers = [] := by
  unfold answers
  split <;> simp_all

theorem answers_of_some {answer : LexAnswer} (h : s.next = (some answer, s'))
    : s.answers = answer :: s'.answers := by
  rw [answers]
  split <;> simp_all

theorem pieces_pending (h : s.pending = none) (token : SpannedToken)
    : pieces { s with pending := some token } = .ok token :: s.pieces := by
  apply pieces_of_some
  cases s
  cases h
  rfl

theorem joinWords_alone (h : first.value.pairing? = none)
    : joinWords (.ok first :: rest) = .ok first :: joinWords rest := by
  rw [joinWords.eq_def]
  simp only [h]

theorem joinWords_last : joinWords [.ok first] = [.ok first] := by
  simp [joinWords]

theorem joinWords_fault {pair : Operator × Token} (h : first.value.pairing? = some pair)
    (e : ParseError) : joinWords (.ok first :: .error e :: rest) = .error e :: joinWords rest := by
  rw [joinWords.eq_def]
  simp only [h]

theorem joinWords_pair (op : Operator) (h : first.value.pairing? = some (op, second.value))
    : joinWords (.ok first :: .ok second :: rest)
        =
      .ok ⟨.operator op, first.span.merge second.span⟩ :: joinWords rest := by
  rw [joinWords.eq_def]
  simp only [h, if_true]

theorem joinWords_apart (h : ∀ op word, first.value.pairing? = some (op, word) → second.value ≠ word)
    : joinWords (.ok first :: .ok second :: rest) = .ok first :: joinWords (.ok second :: rest) := by
  rw [joinWords.eq_def]
  cases hpair : first.value.pairing? with
  | none => simp only [hpair]
  | some pair => simp only [hpair, if_neg (h pair.1 pair.2 hpair)]

theorem answers_eq_joinWords (s : Scanner) : s.answers = joinWords s.pieces := by
  match hfirst : s.nextPiece with
  | (none, s₁) =>
    have hnext : s.next = (none, s₁) := by simp only [next, hfirst]
    rw [pieces_of_none hfirst, answers_of_none hnext, joinWords]
  | (some (.error e), s₁) =>
    have hnext : s.next = (some (.error e), s₁) := by simp only [next, hfirst]
    have hlt := size_next hnext
    rw [pieces_of_some hfirst, answers_of_some hnext, joinWords, answers_eq_joinWords s₁]
  | (some (.ok first), s₁) =>
    cases hpair : first.value.pairing? with
    | none =>
      have hnext : s.next = (some (.ok first), s₁) := by simp only [next, hfirst, hpair]
      have hlt := size_next hnext
      rw [pieces_of_some hfirst, answers_of_some hnext, joinWords_alone hpair, answers_eq_joinWords s₁]
    | some pair =>
      match hsecond : s₁.nextPiece with
      | (none, s₂) =>
        have hnext : s.next = (some (.ok first), s₂) := by simp only [next, hfirst, hpair, hsecond]
        have hlt := size_next hnext
        rw [pieces_of_some hfirst, pieces_of_none hsecond, answers_of_some hnext, joinWords_last,
          answers_eq_joinWords s₂, pieces_of_end hsecond, joinWords]
      | (some (.error e), s₂) =>
        have hnext : s.next = (some (.error e), s₂) := by simp only [next, hfirst, hpair, hsecond]
        have hlt := size_next hnext
        rw [pieces_of_some hfirst, pieces_of_some hsecond, answers_of_some hnext, joinWords_fault hpair,
          answers_eq_joinWords s₂]
      | (some (.ok second), s₂) =>
        rw [pieces_of_some hfirst, pieces_of_some hsecond]
        by_cases hword : second.value = pair.2
        . have hnext : s.next = (some (.ok ⟨.operator pair.1, first.span.merge second.span⟩), s₂) := by
            simp only [next, hfirst, hpair, hsecond, if_pos hword]
          have hlt := size_next hnext
          rw [answers_of_some hnext, joinWords_pair pair.1 (by rw [hpair, hword]),
            answers_eq_joinWords s₂]
        . have hnext : s.next = (some (.ok first), { s₂ with pending := some second }) := by
            simp only [next, hfirst, hpair, hsecond, if_neg hword]
          have hlt := size_next hnext
          have hpending : s₂.pending = none := by simpa only [hsecond] using pending_nextPiece s₁
          rw [answers_of_some hnext, answers_eq_joinWords, pieces_pending hpending, joinWords_apart]
          intro op word h
          cases hpair.symm.trans h
          exact hword
termination_by s.size

/-! Texts in front of others. -/

/-- A text is split into certain tokens, whatever stands behind it. -/
def SplitsInto (split : Scanner → List LexAnswer) (cs : List Char) (tokens : List Token) : Prop :=
  ∀ offset rest, ∃ front offset',
    split ⟨cs ++ rest, offset, none⟩ = front ++ split ⟨rest, offset', none⟩
      ∧ Condition.Spells front tokens

variable {split : Scanner → List LexAnswer} {cs cs' : List Char} {tokens tokens' : List Token}

theorem splitsInto_nil : SplitsInto split [] [] := by
  intro offset rest
  exact ⟨[], offset, rfl, rfl⟩

theorem SplitsInto.append (h : SplitsInto split cs tokens) (h' : SplitsInto split cs' tokens')
    : SplitsInto split (cs ++ cs') (tokens ++ tokens') := by
  intro offset rest
  obtain ⟨front, offset₁, hfront, hspells⟩ := h offset (cs' ++ rest)
  obtain ⟨front', offset₂, hfront', hspells'⟩ := h' offset₁ rest
  refine ⟨front ++ front', offset₂, ?_, hspells.append hspells'⟩
  rw [List.append_assoc, hfront, hfront', List.append_assoc]

theorem pieces_blank (rest : List Char) (offset : Nat)
    : pieces ⟨' ' :: rest, offset, none⟩ = pieces ⟨rest, offset + 1, none⟩ := by
  have hskip : skipBlanks ⟨' ' :: rest, offset, none⟩ = skipBlanks ⟨rest, offset + 1, none⟩ := by
    simp [skipBlanks, isFilterBlank, byteLength, Nat.add_assoc]
    rfl
  have hnext : nextPiece ⟨' ' :: rest, offset, none⟩ = nextPiece ⟨rest, offset + 1, none⟩ := by
    unfold nextPiece
    rw [hskip]
    cases (skipBlanks ⟨rest, offset + 1, none⟩).rest <;> rfl
  rw [pieces, hnext, pieces]

theorem pieces_of_lexeme {c : Char} {tail rest : List Char} {token : Token}
    (hblank : isFilterBlank c = false) (h : lexeme c (tail ++ rest) = ⟨some token, tail⟩) (offset : Nat)
    : ∃ span offset',
        pieces ⟨c :: tail ++ rest, offset, none⟩ = .ok ⟨token, span⟩ :: pieces ⟨rest, offset', none⟩ := by
  refine ⟨⟨offset, offset + byteLength (c :: tail)⟩, offset + byteLength (c :: tail), ?_⟩
  apply pieces_of_some
  simp [nextPiece, skipBlanks, hblank, takePiece, h, byteLength]

theorem splitsInto_blank : SplitsInto pieces [' '] [] := by
  intro offset rest
  exact ⟨[], offset + 1, pieces_blank rest offset, rfl⟩

theorem splitsInto_of_lexeme {c : Char} {tail : List Char} {token : Token}
    (hblank : isFilterBlank c = false) (h : ∀ rest, lexeme c (tail ++ rest) = ⟨some token, tail⟩)
    : SplitsInto pieces (c :: tail) [token] := by
  intro offset rest
  obtain ⟨span, offset', hpieces⟩ := pieces_of_lexeme hblank (h rest) offset
  exact ⟨[.ok ⟨token, span⟩], offset', hpieces, rfl⟩

-- The longest piece is taken, so that most pieces need a blank behind them.
theorem splitsInto_of_lexeme_blank {c : Char} {tail : List Char} {token : Token}
    (hblank : isFilterBlank c = false)
    (h : ∀ rest, lexeme c (tail ++ ' ' :: rest) = ⟨some token, tail⟩)
    : SplitsInto pieces (c :: tail ++ [' ']) [token] := by
  intro offset rest
  obtain ⟨span, offset', hpieces⟩ := pieces_of_lexeme hblank (h rest) offset
  refine ⟨[.ok ⟨token, span⟩], offset' + 1, ?_, rfl⟩
  rw [List.append_assoc]
  exact hpieces.trans (congrArg _ (pieces_blank rest offset'))

/-- A letter or `_`, and behind it letters, digits and `_`. -/
def isWord (word : String) : Bool :=
  match word.toList with
  | [] => false
  | c :: cs => isWordStart c && cs.all isWordChar

/-- A word that a field can have as its name. -/
def isFieldName (name : String) : Bool :=
  isWord name && !(["and", "or", "in", "contains"].contains name)

theorem not_blank_of_isWordStart {c : Char} (h : isWordStart c = true) : isFilterBlank c = false := by
  simp only [isFilterBlank, Bool.or_eq_false_iff, beq_eq_false_iff_ne]
  refine ⟨⟨⟨?_, ?_⟩, ?_⟩, ?_⟩
  all_goals
    rintro rfl
    revert h
    decide

theorem takeWhile_all_blank {cs : List Char} (h : cs.all isWordChar = true) (rest : List Char)
    : (cs ++ ' ' :: rest).takeWhile isWordChar = cs := by
  rw [List.takeWhile_append_of_pos (List.all_eq_true.mp h), List.takeWhile_cons_of_neg (by decide),
    List.append_nil]

theorem splitsInto_word (word : String) (h : isWord word = true)
    : SplitsInto pieces (word.toList ++ [' ']) [Token.ofWord word] := by
  unfold isWord at h
  split at h
  . cases h
  . next c cs hword =>
    rw [Bool.and_eq_true] at h
    have hlexeme : ∀ rest, lexeme c (cs ++ ' ' :: rest) = ⟨some (Token.ofWord word), cs⟩ := by
      intro rest
      unfold lexeme
      rw [if_pos h.1, takeWhile_all_blank h.2]
      simp only [← hword, String.ofList_toList]
    rw [hword]
    exact splitsInto_of_lexeme_blank (not_blank_of_isWordStart h.1) hlexeme

theorem ofWord_of_isFieldName {name : String} (h : isFieldName name = true)
    : Token.ofWord name = .identifier name := by
  unfold isFieldName at h
  unfold Token.ofWord
  split <;> simp_all

theorem splitsInto_name {name : String} (h : isFieldName name = true)
    : SplitsInto pieces (name.toList ++ [' ']) [.identifier name] := by
  have hword : isWord name = true := by
    unfold isFieldName at h
    exact (Bool.and_eq_true _ _ |>.mp h).1
  rw [← ofWord_of_isFieldName h]
  exact splitsInto_word name hword

/-- The tokens of an operator before words are put together. -/
def operatorWords : Operator → List Token
  | .startsWith => [.identifier "starts", .identifier "with"]
  | .notIn => [.identifier "not", .operator .isIn]
  | op => [.operator op]

theorem splitsInto_operator (op : Operator)
    : SplitsInto pieces (op.spelling.toList ++ [' ']) (operatorWords op) := by
  cases op with
  | startsWith => exact (splitsInto_word "starts" rfl).append (splitsInto_word "with" rfl)
  | notIn => exact (splitsInto_word "not" rfl).append (splitsInto_word "in" rfl)
  | contains => exact splitsInto_word "contains" rfl
  | isIn => exact splitsInto_word "in" rfl
  | _ => exact splitsInto_of_lexeme_blank (by decide) fun rest => rfl

/-- Every identifier in the answers is the name of a field. -/
def NamesFields (answers : List LexAnswer) : Prop :=
  ∀ answer ∈ answers, ∀ name, answer.token? = some (.identifier name) → isFieldName name = true

/-- Nowhere stand `not` and `in` as words apart. -/
def KeepsNotIn (answers : List LexAnswer) : Prop :=
  answers.IsChain fun first second =>
    ¬(first.token? = some (.identifier "not") ∧ second.token? = some (.operator .isIn))

theorem isFieldName_of_ofWord {word name : String} (hword : isWord word = true)
    (h : Token.ofWord word = .identifier name) : isFieldName name = true := by
  unfold Token.ofWord at h
  split at h
  all_goals cases h
  simp_all [isFieldName]

theorem isFieldName_of_lexeme {c : Char} {cs : List Char} {name : String}
    (h : (lexeme c cs).token? = some (.identifier name)) : isFieldName name = true := by
  unfold lexeme at h
  split at h
  . next hstart =>
    have hword : isWord (String.ofList (c :: cs.takeWhile isWordChar)) = true := by
      simp [isWord, hstart]
    exact isFieldName_of_ofWord hword (Option.some.inj h)
  . split at h
    . cases h
    . split at h
      . dsimp only at h
        split at h <;> cases h
      . split at h <;> cases h

theorem namesFields_cons {answer : LexAnswer} {answers : List LexAnswer}
    : NamesFields (answer :: answers)
        ↔
      (∀ name, answer.token? = some (.identifier name) → isFieldName name = true)
        ∧ NamesFields answers :=
  List.forall_mem_cons

theorem namesFields_pieces (s : Scanner) (h : s.pending = none) : NamesFields s.pieces := by
  match hnext : s.nextPiece with
  | (none, s') =>
    rw [pieces_of_none hnext]
    intro answer hanswer
    cases hanswer
  | (some piece, s') =>
    have hlt := size_nextPiece hnext
    have hpending : s'.pending = none := by simpa only [hnext] using pending_nextPiece s
    have ih := namesFields_pieces s' hpending
    rw [pieces_of_some hnext]
    refine namesFields_cons.mpr ⟨?_, ih⟩
    intro name hname
    unfold nextPiece at hnext
    split at hnext
    . next hsome =>
      rw [h] at hsome
      cases hsome
    . cases hnext
    . next c cs _ _ =>
      cases hnext
      cases htoken : (lexeme c cs).token? with
      | none => simp [LexAnswer.token?, htoken] at hname
      | some token =>
        have hlexeme : (lexeme c cs).token? = some (.identifier name) := by
          simpa [LexAnswer.token?, htoken] using hname
        exact isFieldName_of_lexeme hlexeme
termination_by s.size

theorem namesFields_joinWords (ps : List LexAnswer) (h : NamesFields ps) : NamesFields (joinWords ps) := by
  fun_induction joinWords ps with
  | case1 => exact h
  | case2 e ps ih =>
    rw [namesFields_cons] at h ⊢
    exact ⟨h.1, ih h.2⟩
  | case3 first op second rest hpair ih =>
    rw [namesFields_cons, namesFields_cons] at h
    refine namesFields_cons.mpr ⟨?_, ih h.2.2⟩
    intro name hname
    cases hname
  | case4 first op word second rest hpair hword ih =>
    rw [namesFields_cons] at h ⊢
    exact ⟨h.1, ih h.2⟩
  | case5 first pair e rest hpair ih =>
    rw [namesFields_cons, namesFields_cons] at h
    exact namesFields_cons.mpr ⟨h.2.1, ih h.2.2⟩
  | case6 first ps hnot hnot' ih =>
    rw [namesFields_cons] at h ⊢
    exact ⟨h.1, ih h.2⟩

theorem operator_of_pairing? {token word : Token} {op : Operator}
    (h : token.pairing? = some (op, word)) : op ≠ .isIn := by
  unfold Token.pairing? at h
  split at h
  all_goals
    cases h
    try decide

theorem head_joinWords {answer : LexAnswer}
    (h : answer ∈ (joinWords (.ok second :: rest)).head?)
    (hin : answer.token? = some (.operator .isIn)) : second.value = .operator .isIn := by
  rw [joinWords.eq_def] at h
  dsimp only at h
  split at h
  . next op word third rest hpair =>
    split at h
    . cases h
      cases hin
      exact absurd rfl (operator_of_pairing? hpair)
    . cases h
      exact Option.some.inj hin
  . cases h
    cases hin
  . cases h
    exact Option.some.inj hin

theorem keepsNotIn_joinWords (ps : List LexAnswer) : KeepsNotIn (joinWords ps) := by
  unfold KeepsNotIn
  fun_induction joinWords ps with
  | case1 => exact .nil
  | case2 e ps ih | case3 first op second rest hpair ih | case5 first pair e rest hpair ih =>
    refine List.isChain_cons.mpr ⟨?_, ih⟩
    rintro answer - ⟨hnot, -⟩
    cases hnot
  | case4 first op word second rest hpair hword ih =>
    refine List.isChain_cons.mpr ⟨?_, ih⟩
    rintro answer hanswer ⟨hnot, hin⟩
    apply hword
    rw [head_joinWords hanswer hin]
    rw [Option.some.inj hnot] at hpair
    cases hpair
    rfl
  | case6 first ps hpair hfault ih =>
    refine List.isChain_cons.mpr ⟨?_, ih⟩
    rintro answer hanswer ⟨hnot, hin⟩
    rw [Option.some.inj hnot] at hpair hfault
    cases ps with
    | nil => simp [joinWords] at hanswer
    | cons piece rest =>
      cases piece with
      | error e => exact hfault _ e rest rfl rfl
      | ok second => exact hpair _ _ second rest rfl rfl

end Scanner

end ObjectStore
