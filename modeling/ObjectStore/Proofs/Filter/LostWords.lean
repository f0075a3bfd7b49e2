import Mathlib.Data.List.Flatten
import ObjectStore.Proofs.Filter.Peeking
import ObjectStore.Proofs.Filter.Respacing

/-!
This module proves which pieces of a text are delivered when a lexer is asked for tokens up to the end of
the text, beyond all faults. A word that begins an operator is lost if a fault comes next, since the
lexer looks for the second word before it delivers the first one. Every other piece is delivered exactly
once, on its own or as one of two words, by induction along the way in which words are put together.
-/

namespace ObjectStore

/-- The pieces of a text, the faults among them. -/
def sourcePieces (source : String) : List LexAnswer :=
  (Scanner.ofText source.toList).pieces

/-- A piece is a token that is written there, or else text that no token is at the front of: one
character, or all of the rest. -/
structure PieceAt (text rest : List Char) (piece : LexAnswer) : Prop where
  token : ∀ token, piece.token? = some token → Lexes text rest token
  fault : piece.token? = none
    → (∀ front back token, text ++ rest = front ++ back → ¬Lexes front back token)
      ∧ (text.length = 1 ∨ rest = [])
  visible : ∀ c ∈ text.head?, isFilterBlank c = false

/-- Each piece is delivered exactly once and in its place, on its own or as one of the two words of an
operator. -/
inductive Delivered : List LexAnswer → List LexAnswer → Prop where
  | done : Delivered [] []
  | alone {piece : LexAnswer} {pieces answers : List LexAnswer} (h : Delivered pieces answers)
    : Delivered (piece :: pieces) (piece :: answers)
  | pair {op : Operator} {first second : SpannedToken} {pieces answers : List LexAnswer}
    (hwords : (Token.operator op).words = first.value.words ++ second.value.words)
    (h : Delivered pieces answers)
    : Delivered (.ok first :: .ok second :: pieces)
      (.ok ⟨.operator op, first.span.merge second.span⟩ :: answers)

/-- Nothing of a source is swallowed: its pieces are all delivered, and what the answers do not cover are
blanks. -/
structure Complete (source : String) (pieces answers : List LexAnswer) : Prop where
  delivered : Delivered pieces answers
  in_order : answers.Pairwise fun first second => first.span.stop ≤ second.span.start
  blank_between : ∀ byte < source.utf8ByteSize, (∀ answer ∈ answers, ¬answer.span.Covers byte)
    → BlankAt source.toList byte

/-- The first piece begins an operator, and the second one is a fault. -/
def losesWord (first second : LexAnswer) : Bool :=
  (first.token?.bind Token.pairing?).isSome && second.token?.isNone

/-- The pieces without the words in front of faults. -/
def keptPieces : List LexAnswer → List LexAnswer
  | first :: second :: pieces =>
    if losesWord first second then
      keptPieces (second :: pieces)
    else
      first :: keptPieces (second :: pieces)
  | pieces => pieces

/-! Pieces. -/

theorem tail_lexeme_of_fault (c : Char) (cs : List Char)
    : (lexeme c cs).token? = none → (lexeme c cs).tail = [] ∨ (lexeme c cs).tail = cs := by
  unfold lexeme
  split
  . intro h
    cases h
  . split
    . intro h
      cases h
    . split
      . dsimp only
        split
        . intro h
          cases h
        . intro _
          exact .inr rfl
      . split
        all_goals
          intro h
          first | exact .inl rfl | cases h

theorem IsVisiblePiece.pieceAt {text rest : List Char} {piece : LexAnswer}
    (h : IsVisiblePiece text rest piece) : PieceAt text rest piece := by
  refine ⟨fun token htoken => h.piece.lexes htoken, ?_, h.visible⟩
  intro hfault
  obtain ⟨c, tail, rfl, hlexeme⟩ := h.piece
  rw [hfault] at hlexeme
  constructor
  . intro front back token hsplit hlexes
    cases front with
    | nil => exact hlexes.ne_nil rfl
    | cons d front =>
      rw [List.cons_append, List.cons_append, List.cons.injEq] at hsplit
      obtain ⟨rfl, hsplit⟩ := hsplit
      rw [hsplit, lexeme_eq_iff.2 hlexes] at hlexeme
      cases hlexeme
  . have htail := tail_lexeme_of_fault c (tail ++ rest)
    rw [hlexeme] at htail
    obtain htail | htail := htail rfl
    . left
      rw [show tail = [] from htail, List.length_singleton]
    . right
      exact List.append_right_eq_self.1 htail.symm

theorem laid_sourcePieces (source : String) : Laid PieceAt 0 source.toList (sourcePieces source) :=
  (Scanner.laid_visible_pieces source.toList 0).imp fun _ _ _ h => h.pieceAt

/-! What is delivered. -/

variable {piece first second : LexAnswer} {pieces answers : List LexAnswer}

theorem keptPieces_lost (h : losesWord first second = true)
    : keptPieces (first :: second :: pieces) = keptPieces (second :: pieces) := by
  rw [keptPieces, if_pos h]

theorem keptPieces_cons (h : ∀ second ∈ pieces.head?, losesWord piece second = false)
    : keptPieces (piece :: pieces) = piece :: keptPieces pieces := by
  cases pieces with
  | nil => rfl
  | cons second pieces =>
    rw [keptPieces, if_neg]
    rw [h second rfl]
    exact Bool.false_ne_true

theorem losesWord_ok (first : LexAnswer) (second : SpannedToken)
    : losesWord first (.ok second) = false :=
  Bool.and_false _

theorem losesWord_of_pairing? {first : SpannedToken} (h : first.value.pairing? = none)
    (second : LexAnswer) : losesWord (.ok first) second = false := by
  unfold losesWord
  rw [LexAnswer.token?, Option.bind_some, h]
  rfl

theorem Token.pairing?_of_second {first second : Token} {op : Operator}
    (h : first.pairing? = some (op, second)) : second.pairing? = none := by
  unfold pairing? at h
  split at h
  all_goals cases h
  all_goals rfl

/-- All pieces but the words in front of faults are delivered. -/
theorem delivered_keptPieces (pieces : List LexAnswer)
    : Delivered (keptPieces pieces) (Scanner.joinWords pieces) := by
  fun_induction Scanner.joinWords pieces with
  | case1 => exact .done
  | case2 e pieces ih =>
    rw [keptPieces_cons fun _ _ => rfl]
    exact .alone ih
  | case3 first op second rest hpair ih =>
    obtain ⟨hwords, -, -⟩ := Token.words_of_pairing? hpair
    have hsecond := losesWord_of_pairing? (Token.pairing?_of_second hpair)
    rw [keptPieces_cons, keptPieces_cons fun piece _ => hsecond piece]
    . exact .pair hwords ih
    . rintro _ ⟨⟩
      exact losesWord_ok _ _
  | case4 first op word second rest hpair hword ih =>
    rw [keptPieces_cons]
    . exact .alone ih
    . rintro _ ⟨⟩
      exact losesWord_ok _ _
  | case5 first pair e rest hpair ih =>
    have hlost : losesWord (.ok first) (.error e) = true := by
      unfold losesWord
      rw [LexAnswer.token?, Option.bind_some, hpair]
      rfl
    rw [keptPieces_lost hlost, keptPieces_cons fun _ _ => rfl]
    exact .alone ih
  | case6 first pieces hnot hnot' ih =>
    rw [keptPieces_cons]
    . exact .alone ih
    . intro second hsecond
      cases hpair : first.value.pairing? with
      | none => exact losesWord_of_pairing? hpair second
      | some pair =>
        obtain ⟨rest, rfl⟩ := List.head?_eq_some_iff.1 hsecond
        cases second with
        | ok second => exact absurd rfl (hnot pair.1 pair.2 second rest hpair)
        | error e => exact absurd rfl (hnot' pair e rest hpair)

namespace Delivered

theorem words_eq (h : Delivered pieces answers)
    : answers.flatMap LexAnswer.words = pieces.flatMap LexAnswer.words := by
  induction h with
  | done => rfl
  | alone _ ih => rw [List.flatMap_cons, List.flatMap_cons, ih]
  | pair hwords _ ih =>
    rw [List.flatMap_cons, List.flatMap_cons, List.flatMap_cons, ih, ← List.append_assoc]
    exact congrArg (· ++ _) hwords

theorem covers (h : Delivered pieces answers) {byte : Nat} (hpiece : piece ∈ pieces)
    (hbyte : piece.span.Covers byte) : ∃ answer ∈ answers, answer.span.Covers byte := by
  induction h with
  | done => cases hpiece
  | alone _ ih =>
    rcases List.mem_cons.1 hpiece with rfl | hpiece
    . exact ⟨_, List.mem_cons_self, hbyte⟩
    . obtain ⟨answer, hanswer, hcovers⟩ := ih hpiece
      exact ⟨answer, List.mem_cons_of_mem _ hanswer, hcovers⟩
  | @pair op first second pieces answers _ _ ih =>
    simp only [List.mem_cons] at hpiece
    obtain ⟨hstart, hstop⟩ := hbyte
    rcases hpiece with rfl | rfl | hpiece
    . exact ⟨_, List.mem_cons_self, Nat.le_trans (Nat.min_le_left _ _) hstart,
        Nat.lt_of_lt_of_le hstop (Nat.le_max_left _ _)⟩
    . exact ⟨_, List.mem_cons_self, Nat.le_trans (Nat.min_le_right _ _) hstart,
        Nat.lt_of_lt_of_le hstop (Nat.le_max_right _ _)⟩
    . obtain ⟨answer, hanswer, hcovers⟩ := ih hpiece
      exact ⟨answer, List.mem_cons_of_mem _ hanswer, hcovers⟩

end Delivered

/-! What is lost. -/

theorem keptPieces_sublist (pieces : List LexAnswer) : (keptPieces pieces).Sublist pieces := by
  fun_induction keptPieces pieces with
  | case1 first second pieces hlost ih => exact ih.cons first
  | case2 first second pieces hkept ih => exact ih.cons_cons first
  | case3 pieces hnot => exact List.Sublist.refl pieces

theorem keptPieces_eq_self (h : pieces.IsChain fun first second => losesWord first second = false)
    : keptPieces pieces = pieces := by
  fun_induction keptPieces pieces with
  | case1 first second pieces hlost ih =>
    rw [(List.isChain_cons_cons.1 h).1] at hlost
    cases hlost
  | case2 first second pieces hkept ih => rw [ih (List.isChain_cons_cons.1 h).2]
  | case3 pieces hnot => rfl

theorem length_words_of_losesWord (h : losesWord first second = true) : 0 < first.words.length := by
  unfold losesWord at h
  obtain ⟨hpair, -⟩ := Bool.and_eq_true_iff.1 h
  cases htoken : first.token? with
  | none => simp [htoken] at hpair
  | some token =>
    obtain ⟨pair, hpair⟩ := Option.isSome_iff_exists.1 hpair
    rw [htoken, Option.bind_some] at hpair
    unfold LexAnswer.words
    rw [htoken]
    unfold Token.pairing? at hpair
    split at hpair
    all_goals cases hpair
    all_goals exact Nat.zero_lt_one

/-- Where a word stands in front of a fault, there are fewer words among the kept pieces. -/
theorem isChain_of_words_keptPieces
    (h : (keptPieces pieces).flatMap LexAnswer.words = pieces.flatMap LexAnswer.words)
    : pieces.IsChain fun first second => losesWord first second = false := by
  fun_induction keptPieces pieces with
  | case1 first second pieces hlost ih =>
    have hpos := length_words_of_losesWord hlost
    have hle := ((keptPieces_sublist (second :: pieces)).flatMap LexAnswer.words).length_le
    rw [h, List.flatMap_cons, List.length_append] at hle
    omega
  | case2 first second pieces hkept ih =>
    rw [List.flatMap_cons, List.flatMap_cons] at h
    refine List.isChain_cons_cons.2 ⟨?_, ih (List.append_cancel_left h)⟩
    simpa using hkept
  | case3 pieces hnot =>
    match pieces, hnot with
    | [], _ => exact .nil
    | [piece], _ => exact .singleton piece
    | first :: second :: pieces, hnot => exact absurd rfl (hnot first second pieces)

section

variable {source : String}

theorem lexAnswers_eq_joinWords (source : String)
    : lexAnswers source = Scanner.joinWords (sourcePieces source) :=
  Scanner.answers_eq_joinWords _

theorem complete_of_isChain
    (h : (sourcePieces source).IsChain fun first second => losesWord first second = false)
    : Complete source (sourcePieces source) (lexAnswers source) := by
  have hdelivered : Delivered (sourcePieces source) (lexAnswers source) := by
    have hkept := delivered_keptPieces (sourcePieces source)
    rwa [keptPieces_eq_self h, ← lexAnswers_eq_joinWords] at hkept
  refine ⟨hdelivered, (stationed_lexAnswers source).pairwise, ?_⟩
  intro byte hbyte hout
  rw [← byteLength_toList] at hbyte
  apply (laid_sourcePieces source).blankAt hbyte
  intro piece hpiece hcovers
  rw [Nat.zero_add] at hcovers
  obtain ⟨answer, hanswer, hcovers⟩ := hdelivered.covers hpiece hcovers
  exact hout answer hanswer hcovers

theorem isChain_of_complete (h : Complete source (sourcePieces source) (lexAnswers source))
    : (sourcePieces source).IsChain fun first second => losesWord first second = false := by
  apply isChain_of_words_keptPieces
  have hkept := delivered_keptPieces (sourcePieces source)
  rw [← lexAnswers_eq_joinWords] at hkept
  rw [← hkept.words_eq, h.delivered.words_eq]

end

/-- A lexer that is asked for tokens up to the end gives its answers one by one, and they deliver all
pieces of the source but the words in front of faults. So nothing is swallowed if and only if no word
that begins an operator stands in front of a fault. -/
theorem complete_iff (source : String)
    : Laid PieceAt 0 source.toList (sourcePieces source)
        ∧
      (Lexer.ofSource source).run (List.replicate ((lexAnswers source).length + 1) .next)
          = (lexAnswers source).map (fun answer => (.next, Lexer.ofAnswer (some answer)))
            ++ [(.next, .ok none)]
        ∧
      Delivered (keptPieces (sourcePieces source)) (lexAnswers source)
        ∧
      (Complete source (sourcePieces source) (lexAnswers source)
        ↔
      (sourcePieces source).IsChain fun first second => losesWord first second = false) := by
  refine ⟨laid_sourcePieces source, ?_, ?_, isChain_of_complete, complete_of_isChain⟩
  . rw [Lexer.run_ofSource, List.replicate_succ']
    have hrun := Lexer.replies_next (lexAnswers source) [] [.next]
    rwa [List.append_nil] at hrun
  . rw [lexAnswers_eq_joinWords]
    exact delivered_keptPieces _

/-- The word is taken to look for the second one, and is gone with the fault that stands there. -/
theorem not_complete_of_lost_word
    : sourcePieces "starts &"
          = [.ok ⟨.identifier "starts", ⟨0, 6⟩⟩, .error ⟨.unexpectedText "&", ⟨7, 8⟩⟩]
        ∧ lexAnswers "starts &" = [.error ⟨.unexpectedText "&", ⟨7, 8⟩⟩]
        ∧ ¬Complete "starts &" (sourcePieces "starts &") (lexAnswers "starts &") := by
  have hpieces : sourcePieces "starts &"
      = [.ok ⟨.identifier "starts", ⟨0, 6⟩⟩, .error ⟨.unexpectedText "&", ⟨7, 8⟩⟩] := by
    decide +kernel
  have hanswers : lexAnswers "starts &" = [.error ⟨.unexpectedText "&", ⟨7, 8⟩⟩] := by
    decide +kernel
  refine ⟨hpieces, hanswers, ?_⟩
  rw [hpieces, hanswers]
  intro hcomplete
  cases hcomplete.delivered

end ObjectStore
