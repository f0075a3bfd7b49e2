import ObjectStore.Proofs.Filter.Layout

/-!
This module proves where the answers of a lexer stand in a text that may have faults. A word that is
lost before a fault leaves a gap between two answers, and nothing but blanks and such words stands in a
gap, so that gaps are written in ASCII. Places, the order of the answers and what stands in front of
an answer can be read off from that.
-/

namespace ObjectStore

def AllAscii (cs : List Char) : Prop :=
  ∀ c ∈ cs, c.toNat < 128

instance (cs : List Char) : Decidable (AllAscii cs) :=
  inferInstanceAs (Decidable (∀ c ∈ cs, c.toNat < 128))

theorem allAscii_append {cs cs' : List Char} : AllAscii (cs ++ cs') ↔ AllAscii cs ∧ AllAscii cs' :=
  List.forall_mem_append

theorem utf8Size_eq_one_iff {c : Char} : c.utf8Size = 1 ↔ c.toNat < 128 := by
  rw [Char.utf8Size_eq_one_iff, UInt32.le_iff_toNat_le]
  exact Nat.lt_succ_iff.symm

theorem length_le_byteLength (cs : List Char) : cs.length ≤ byteLength cs := by
  induction cs with
  | nil => exact Nat.le_refl _
  | cons c cs ih =>
    have := c.utf8Size_pos
    rw [List.length_cons, byteLength_cons]
    omega

theorem byteLength_eq_zero {cs : List Char} (h : cs.length = 0) : byteLength cs = 0 := by
  rw [List.length_eq_zero_iff.1 h]
  rfl

/-- Only in ASCII a text has as many bytes as characters. -/
theorem byteLength_le_length_iff {cs : List Char} : byteLength cs ≤ cs.length ↔ AllAscii cs := by
  induction cs with
  | nil => simp [AllAscii]
  | cons c cs ih =>
    have hpos := c.utf8Size_pos
    have hle := length_le_byteLength cs
    have hsplit : AllAscii (c :: cs) ↔ c.utf8Size = 1 ∧ byteLength cs ≤ cs.length := by
      rw [ih, utf8Size_eq_one_iff]
      exact List.forall_mem_cons
    rw [hsplit, byteLength_cons, List.length_cons]
    omega

theorem AllAscii.byteLength_eq {cs : List Char} (h : AllAscii cs) : byteLength cs = cs.length :=
  Nat.le_antisymm (byteLength_le_length_iff.2 h) (length_le_byteLength cs)

theorem lt_128_of_isWordChar {c : Char} (h : isWordChar c = true) : c.toNat < 128 := by
  have hcases : isWordStart c = true ∨ c.isDigit = true := by
    simp only [isWordChar, isWordStart, Char.isAlphanum, Bool.or_eq_true] at h ⊢
    tauto
  obtain hstart | hdigit := hcases
  . exact (bounds_of_isWordStart hstart).2
  . exact Nat.lt_trans (lt_65_of_isDigit hdigit) (by decide)

namespace Token

/-- The tokens that a filter can have. -/
def isPlain : Token → Bool
  | literal _ => false
  | _ => true

end Token

/-- The answer is a token that a filter can have. -/
def LexAnswer.IsPlain (answer : LexAnswer) : Prop :=
  ∃ token, answer.token? = some token ∧ token.isPlain = true

theorem Lexes.allAscii {text rest : List Char} {token : Token} (h : Lexes text rest token)
    (hplain : token.isPlain = true) : AllAscii text := by
  cases h with
  | word hstart hword =>
    intro d hd
    rcases List.mem_cons.1 hd with rfl | hd
    . exact (bounds_of_isWordStart hstart).2
    . exact lt_128_of_isWordChar (hword d hd)
  | number => cases hplain
  | quoted => cases hplain
  | symbol hsymbol =>
    have htable : ∀ entry ∈ Token.symbols, entry.1.all (·.toNat < 128) = true := by decide
    intro c hc
    exact of_decide_eq_true (List.all_eq_true.1 (htable _ hsymbol) c hc)

theorem Lexes.not_blank_of_mem {text rest : List Char} {token : Token} (h : Lexes text rest token)
    (hplain : token.isPlain = true) : ∀ c ∈ text, isFilterBlank c = false := by
  cases h with
  | word hstart hword =>
    intro d hd
    rcases List.mem_cons.1 hd with rfl | hd
    . exact Scanner.not_blank_of_isWordStart hstart
    . by_contra hblank
      have hend := not_isWordChar_of_blank (Bool.of_not_eq_false hblank)
      rw [hword d hd] at hend
      cases hend
  | number => cases hplain
  | quoted => cases hplain
  | symbol hsymbol =>
    have htable : ∀ entry ∈ Token.symbols, entry.1.all (!isFilterBlank ·) = true := by decide
    intro c hc
    rw [← Bool.not_eq_true']
    exact List.all_eq_true.1 (htable _ hsymbol) c hc

/-- A text in ASCII that does not end with a blank. -/
structure PlainText (text : List Char) : Prop where
  ascii : AllAscii text
  ends : ∀ c ∈ text.getLast?, isFilterBlank c = false

theorem IsPiece.plainText {text rest : List Char} {answer : LexAnswer} (h : IsPiece text rest answer)
    (hplain : answer.IsPlain) : PlainText text := by
  obtain ⟨token, htoken, hplain⟩ := hplain
  have hlexes := h.lexes htoken
  refine ⟨hlexes.allAscii hplain, ?_⟩
  intro c hc
  exact hlexes.not_blank_of_mem hplain c (List.mem_of_getLast? hc)

theorem Token.isPlain_of_isWord {token : Token} (h : token.isWord = true) : token.isPlain = true := by
  cases token with
  | literal => cases h
  | _ => rfl

/-- The answers stand in a text in their order, from a byte on. The gaps between them are written in
ASCII, and so is every token that a filter can have. No answer begins with a blank, and no such token
ends with one. -/
inductive Stationed : Nat → List Char → List LexAnswer → Prop where
  | done {offset : Nat} {gap : List Char} (hgap : AllAscii gap) : Stationed offset gap []
  | answer {offset : Nat} {gap text rest : List Char} {answer : LexAnswer} {answers : List LexAnswer}
    (hgap : AllAscii gap) (htext : text ≠ []) (hvisible : ∀ c ∈ text.head?, isFilterBlank c = false)
    (hspan : answer.span = ⟨offset + byteLength gap, offset + byteLength gap + byteLength text⟩)
    (hplain : answer.IsPlain → PlainText text)
    (hrest : Stationed (offset + byteLength gap + byteLength text) rest answers)
    : Stationed offset (gap ++ (text ++ rest)) (answer :: answers)

variable {offset : Nat} {cs : List Char} {answer : LexAnswer} {answers pieces : List LexAnswer}

/-! Words that are put together. -/

namespace Laid

theorem stationed_alone (h : Laid IsVisiblePiece offset cs (answer :: pieces))
    (hrest : ∀ offset cs, Laid IsVisiblePiece offset cs pieces → Stationed offset cs answers)
    : Stationed offset cs (answer :: answers) := by
  cases h with
  | piece hblanks htext hspan hpiece hpieces =>
    exact .answer hblanks.lt_128 htext hpiece.visible hspan hpiece.piece.plainText (hrest _ _ hpieces)

theorem stationed_pair {first second : SpannedToken} {op : Operator}
    (h : Laid IsVisiblePiece offset cs (.ok first :: .ok second :: pieces))
    (hpair : first.value.pairing? = some (op, second.value))
    (hrest : ∀ offset cs, Laid IsVisiblePiece offset cs pieces → Stationed offset cs answers)
    : Stationed offset cs (.ok ⟨.operator op, first.span.merge second.span⟩ :: answers) := by
  obtain ⟨-, hfirst, hsecond⟩ := Token.words_of_pairing? hpair
  cases h with
  | @piece _ blanks text _ _ _ hblanks htext hspan hpiece hpieces =>
    cases hpieces with
    | @piece _ blanks' text' rest _ _ hblanks' htext' hspan' hpiece' hpieces' =>
      have htext₁ : PlainText text := hpiece.piece.plainText ⟨_, rfl, Token.isPlain_of_isWord hfirst⟩
      have htext₂ : PlainText text' :=
        hpiece'.piece.plainText ⟨_, rfl, Token.isPlain_of_isWord hsecond⟩
      have hcs : blanks ++ (text ++ (blanks' ++ (text' ++ rest)))
          = blanks ++ (text ++ (blanks' ++ text') ++ rest) := by
        simp only [List.append_assoc]
      have hoffset : offset + byteLength blanks + byteLength text + byteLength blanks' + byteLength text'
          = offset + byteLength blanks + byteLength (text ++ (blanks' ++ text')) := by
        rw [byteLength_append, byteLength_append]
        omega
      rw [hcs]
      rw [hoffset] at hpieces' hspan'
      refine .answer hblanks.lt_128 (by simp [htext]) ?_ ?_ ?_ (hrest _ _ hpieces')
      . rw [List.head?_append_of_ne_nil _ htext]
        exact hpiece.visible
      . simp only [LexAnswer.span] at hspan hspan' ⊢
        rw [hspan, hspan']
        exact Span.merge_eq (by dsimp only; omega) (by dsimp only; omega)
      . intro _
        constructor
        . exact allAscii_append.2 ⟨htext₁.ascii, allAscii_append.2 ⟨hblanks'.lt_128, htext₂.ascii⟩⟩
        . rw [← List.append_assoc, List.getLast?_append_of_ne_nil _ htext']
          exact htext₂.ends

/-- A word that is lost comes into the gap in front of the fault. -/
theorem stationed_lost {first : SpannedToken} {e : ParseError} {pair : Operator × Token}
    (h : Laid IsVisiblePiece offset cs (.ok first :: .error e :: pieces))
    (hpair : first.value.pairing? = some pair)
    (hrest : ∀ offset cs, Laid IsVisiblePiece offset cs pieces → Stationed offset cs answers)
    : Stationed offset cs (.error e :: answers) := by
  obtain ⟨-, hfirst, -⟩ := Token.words_of_pairing? hpair
  cases h with
  | @piece _ blanks text _ _ _ hblanks htext hspan hpiece hpieces =>
    cases hpieces with
    | @piece _ blanks' text' rest _ _ hblanks' htext' hspan' hpiece' hpieces' =>
      have htext₁ : PlainText text := hpiece.piece.plainText ⟨_, rfl, Token.isPlain_of_isWord hfirst⟩
      have hcs : blanks ++ (text ++ (blanks' ++ (text' ++ rest)))
          = blanks ++ (text ++ blanks') ++ (text' ++ rest) := by
        simp only [List.append_assoc]
      have hoffset : offset + byteLength blanks + byteLength text + byteLength blanks'
          = offset + byteLength (blanks ++ (text ++ blanks')) := by
        rw [byteLength_append, byteLength_append]
        omega
      rw [hcs]
      rw [hoffset] at hpieces' hspan'
      refine .answer ?_ htext' hpiece'.visible hspan' hpiece'.piece.plainText (hrest _ _ hpieces')
      exact allAscii_append.2 ⟨hblanks.lt_128, allAscii_append.2 ⟨htext₁.ascii, hblanks'.lt_128⟩⟩

theorem stationed (h : Laid IsVisiblePiece offset cs pieces)
    : Stationed offset cs (Scanner.joinWords pieces) := by
  fun_induction Scanner.joinWords pieces generalizing offset cs with
  | case1 =>
    cases h with
    | done hblanks => exact .done hblanks.lt_128
  | case2 e pieces ih => exact h.stationed_alone fun offset cs hrest => ih hrest
  | case3 first op second rest hpair ih => exact h.stationed_pair hpair fun offset cs hrest => ih hrest
  | case4 first op word second rest hpair hword ih =>
    exact h.stationed_alone fun offset cs hrest => ih hrest
  | case5 first pair e rest hpair ih => exact h.stationed_lost hpair fun offset cs hrest => ih hrest
  | case6 first pieces hnot hnot' ih => exact h.stationed_alone fun offset cs hrest => ih hrest

end Laid

theorem stationed_lexAnswers (source : String) : Stationed 0 source.toList (lexAnswers source) := by
  unfold lexAnswers
  rw [Scanner.answers_eq_joinWords]
  exact (Scanner.laid_visible_pieces source.toList 0).stationed

/-! What can be read off. -/

namespace Stationed

/-- Where an answer stands. What is in front of it is written in ASCII if all answers in front of it are
tokens that a filter can have. -/
theorem place {front back : List LexAnswer} (h : Stationed offset cs (front ++ answer :: back))
    : ∃ before text behind, cs = before ++ (text ++ behind) ∧ text ≠ []
        ∧ (∀ c ∈ text.head?, isFilterBlank c = false)
        ∧ answer.span = ⟨offset + byteLength before, offset + byteLength before + byteLength text⟩
        ∧ (answer.IsPlain → PlainText text) ∧ ((∀ a ∈ front, a.IsPlain) → AllAscii before)
        ∧ Stationed (offset + byteLength before + byteLength text) behind back := by
  induction front generalizing offset cs with
  | nil =>
    cases h with
    | answer hgap htext hvisible hspan hplain hrest =>
      exact ⟨_, _, _, rfl, htext, hvisible, hspan, hplain, fun _ => hgap, hrest⟩
  | cons first front ih =>
    cases h with
    | @answer _ gap text rest _ _ hgap htext hvisible hspan hplain hrest =>
      obtain ⟨before, text', behind, rfl, htext', hvisible', hspan', hplain', hbefore, hbehind⟩ :=
        ih hrest
      have hoffset : offset + byteLength gap + byteLength text + byteLength before
          = offset + byteLength (gap ++ (text ++ before)) := by
        rw [byteLength_append, byteLength_append]
        omega
      rw [hoffset] at hspan' hbehind
      refine ⟨gap ++ (text ++ before), text', behind, by simp only [List.append_assoc], htext', hvisible',
        hspan', hplain', ?_, hbehind⟩
      intro hfront
      rw [List.forall_mem_cons] at hfront
      exact allAscii_append.2 ⟨hgap, allAscii_append.2 ⟨(hplain hfront.1).ascii, hbefore hfront.2⟩⟩

theorem place_of_mem (h : Stationed offset cs answers) (hanswer : answer ∈ answers)
    : ∃ before text behind, cs = before ++ (text ++ behind) ∧ text ≠ []
        ∧ answer.span = ⟨offset + byteLength before, offset + byteLength before + byteLength text⟩ := by
  obtain ⟨front, back, rfl⟩ := List.append_of_mem hanswer
  obtain ⟨before, text, behind, hcs, htext, -, hspan, -⟩ := h.place
  exact ⟨before, text, behind, hcs, htext, hspan⟩

theorem allAscii (h : Stationed offset cs answers) (hplain : ∀ answer ∈ answers, answer.IsPlain)
    : AllAscii cs := by
  induction h with
  | done hgap => exact hgap
  | answer hgap _ _ _ htext _ ih =>
    rw [List.forall_mem_cons] at hplain
    exact allAscii_append.2 ⟨hgap, allAscii_append.2 ⟨(htext hplain.1).ascii, ih hplain.2⟩⟩

theorem pairwise (h : Stationed offset cs answers)
    : answers.Pairwise fun first second => first.span.stop ≤ second.span.start := by
  induction h with
  | done => exact .nil
  | answer _ _ _ hspan _ hrest ih =>
    refine List.pairwise_cons.2 ⟨?_, ih⟩
    intro second hsecond
    obtain ⟨_, _, _, _, _, hspan'⟩ := hrest.place_of_mem hsecond
    rw [hspan, hspan']
    exact Nat.le_add_right _ _

theorem start_lt_stop (h : Stationed offset cs answers) (hanswer : answer ∈ answers)
    : answer.span.start < answer.span.stop := by
  obtain ⟨_, _, _, _, htext, hspan⟩ := h.place_of_mem hanswer
  rw [hspan]
  exact Nat.lt_add_of_pos_right (byteLength_pos htext)

theorem nodup (h : Stationed offset cs answers) : answers.Nodup := by
  refine h.pairwise.imp_of_mem ?_
  rintro first second hfirst _ hle rfl
  exact absurd (h.start_lt_stop hfirst) (Nat.not_lt.2 hle)

end Stationed

end ObjectStore
