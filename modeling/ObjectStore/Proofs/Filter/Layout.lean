import ObjectStore.Proofs.Filter.Lexeme

/-!
This module proves that nothing of a text is lost when it is split into tokens. The pieces of a text lie
in it one after the other with nothing but blanks between them, by induction on the text that is left.
When the words of an operator are put together, the blanks between them come into its place, and the
rest lies as before. Where a token stands and what is written there can be read off from that.
-/

namespace ObjectStore

@[simp]
theorem byteLength_nil : byteLength [] = 0 := rfl

@[simp]
theorem byteLength_cons (c : Char) (cs : List Char)
    : byteLength (c :: cs) = c.utf8Size + byteLength cs := rfl

@[simp]
theorem byteLength_append (cs cs' : List Char)
    : byteLength (cs ++ cs') = byteLength cs + byteLength cs' := by
  induction cs with
  | nil => simp
  | cons c cs ih => simp [ih, Nat.add_assoc]

theorem byteLength_eq_utf8ByteSize (cs : List Char)
    : byteLength cs = (String.ofList cs).utf8ByteSize := by
  induction cs with
  | nil => rfl
  | cons c cs ih =>
    rw [byteLength_cons, ih, ← List.singleton_append, String.ofList_append, String.utf8ByteSize_append,
      ← String.singleton_eq_ofList, String.utf8ByteSize_singleton]

theorem byteLength_toList (text : String) : byteLength text.toList = text.utf8ByteSize := by
  rw [byteLength_eq_utf8ByteSize, String.ofList_toList]

theorem byteLength_pos {cs : List Char} (h : cs ≠ []) : 0 < byteLength cs := by
  cases cs with
  | nil => contradiction
  | cons c cs =>
    have := c.utf8Size_pos
    rw [byteLength_cons]
    omega

/-- The byte is one of the bytes at the place. -/
def Span.Covers (span : Span) (byte : Nat) : Prop :=
  span.start ≤ byte ∧ byte < span.stop

theorem Span.merge_eq {a b : Span} (hstart : a.start ≤ b.start) (hstop : a.stop ≤ b.stop)
    : a.merge b = ⟨a.start, b.stop⟩ := by
  unfold merge
  rw [Nat.min_eq_left hstart, Nat.max_eq_right hstop]

def AllBlank (cs : List Char) : Prop :=
  ∀ c ∈ cs, isFilterBlank c = true

instance (cs : List Char) : Decidable (AllBlank cs) :=
  decidable_of_iff (cs.all isFilterBlank = true) List.all_eq_true

/-- A byte of a text that is a character of its own, and a blank. -/
def BlankAt (cs : List Char) (byte : Nat) : Prop :=
  ∃ front c back, cs = front ++ c :: back ∧ byteLength front = byte ∧ isFilterBlank c = true

/-- The words stand in the text in their order, apart from each other, with nothing but blanks between
them. -/
inductive Spaced : List String → List Char → Prop where
  | nil : Spaced [] []
  | last (word : String) : Spaced [word] word.toList
  | cons {word word' : String} {words : List String} {blanks cs : List Char} (hne : blanks ≠ [])
    (hblanks : AllBlank blanks) (hrest : Spaced (word' :: words) cs)
    : Spaced (word :: word' :: words) (word.toList ++ blanks ++ cs)

namespace LexAnswer

def span : LexAnswer → Span
  | .ok token => token.span
  | .error e => e.span

end LexAnswer

/-- The answers lie in the text one after the other, from a byte on, with nothing but blanks between
them. Each is related to what stands at its place and to what stands behind. -/
inductive Laid (Stands : List Char → List Char → LexAnswer → Prop)
    : Nat → List Char → List LexAnswer → Prop where
  | done {offset : Nat} {blanks : List Char} (hblanks : AllBlank blanks) : Laid Stands offset blanks []
  | piece {offset : Nat} {blanks text rest : List Char} {answer : LexAnswer} {answers : List LexAnswer}
    (hblanks : AllBlank blanks) (htext : text ≠ [])
    (hspan : answer.span
      = ⟨offset + byteLength blanks, offset + byteLength blanks + byteLength text⟩)
    (hstands : Stands text rest answer)
    (hrest : Laid Stands (offset + byteLength blanks + byteLength text) rest answers)
    : Laid Stands offset (blanks ++ (text ++ rest)) (answer :: answers)

/-- The piece that the scanner takes from the text, a fault where no piece is a token. -/
def IsPiece (text rest : List Char) (answer : LexAnswer) : Prop :=
  ∃ c tail, text = c :: tail ∧ lexeme c (tail ++ rest) = ⟨answer.token?, tail⟩

/-- A piece that does not begin with a blank. -/
structure IsVisiblePiece (text rest : List Char) (answer : LexAnswer) : Prop where
  piece : IsPiece text rest answer
  visible : ∀ c ∈ text.head?, isFilterBlank c = false

theorem Laid.imp {Stands Stands' : List Char → List Char → LexAnswer → Prop} {offset : Nat}
    {cs : List Char} {answers : List LexAnswer} (h : Laid Stands offset cs answers)
    (himp : ∀ text rest answer, Stands text rest answer → Stands' text rest answer)
    : Laid Stands' offset cs answers := by
  induction h with
  | done hblanks => exact .done hblanks
  | piece hblanks htext hspan hstands _ ih =>
    exact .piece hblanks htext hspan (himp _ _ _ hstands) ih

theorem BlankAt.append_right {cs : List Char} {byte : Nat} (h : BlankAt cs byte) (rest : List Char)
    : BlankAt (cs ++ rest) byte := by
  obtain ⟨front, c, back, rfl, hfront, hc⟩ := h
  exact ⟨front, c, back ++ rest, by simp, hfront, hc⟩

theorem BlankAt.append_left {cs : List Char} {byte : Nat} (h : BlankAt cs byte) (front : List Char)
    : BlankAt (front ++ cs) (byteLength front + byte) := by
  obtain ⟨front', c, back, rfl, rfl, hc⟩ := h
  exact ⟨front ++ front', c, back, by simp, by simp, hc⟩

theorem AllBlank.blankAt {blanks : List Char} (h : AllBlank blanks) {byte : Nat}
    (hbyte : byte < byteLength blanks) : BlankAt blanks byte := by
  induction blanks generalizing byte with
  | nil => exact absurd hbyte (Nat.not_lt_zero _)
  | cons c cs ih =>
    obtain ⟨hc, hcs⟩ := List.forall_mem_cons.1 h
    cases byte with
    | zero => exact ⟨[], c, cs, rfl, rfl, hc⟩
    | succ byte =>
      have hsize : byteLength [c] = 1 := by
        rcases blank_eq hc with rfl | rfl | rfl | rfl <;> rfl
      have hbyte' : byte < byteLength cs := by
        rw [← List.singleton_append, byteLength_append, hsize] at hbyte
        omega
      have hblank := (ih hcs hbyte').append_left [c]
      rwa [hsize, Nat.add_comm] at hblank

theorem exists_blanks (cs : List Char)
    : ∃ blanks rest, cs = blanks ++ rest ∧ AllBlank blanks
        ∧ ∀ c ∈ rest.head?, isFilterBlank c = false := by
  refine ⟨cs.takeWhile isFilterBlank, cs.dropWhile isFilterBlank,
    List.takeWhile_append_dropWhile.symm, fun c hc => List.mem_takeWhile_imp hc, ?_⟩
  intro c hc
  have hne : cs.dropWhile isFilterBlank ≠ [] := by
    intro hnil
    rw [hnil] at hc
    cases hc
  have hhead := List.head_dropWhile_not isFilterBlank hne
  rwa [List.head_of_mem_head? hc] at hhead

namespace Scanner

variable {offset : Nat} {blanks tail rest : List Char} {c : Char} {token? : Option Token}

theorem skipBlanks_eq (hblanks : AllBlank blanks) (hrest : ∀ c ∈ rest.head?, isFilterBlank c = false)
    : skipBlanks ⟨blanks ++ rest, offset, none⟩ = ⟨rest, offset + byteLength blanks, none⟩ := by
  have htake : (blanks ++ rest).takeWhile isFilterBlank = blanks :=
    takeWhile_append_eq_iff.2 ⟨hblanks, hrest⟩
  have hdrop : (blanks ++ rest).dropWhile isFilterBlank = rest := by
    have hsplit : (blanks ++ rest).takeWhile isFilterBlank ++ (blanks ++ rest).dropWhile isFilterBlank
        = blanks ++ rest :=
      List.takeWhile_append_dropWhile
    rw [htake] at hsplit
    exact List.append_cancel_left hsplit
  unfold skipBlanks
  rw [htake, hdrop]

theorem pieces_of_allBlank (h : AllBlank blanks) (offset : Nat)
    : pieces ⟨blanks, offset, none⟩ = [] := by
  have hskip : skipBlanks ⟨blanks ++ [], offset, none⟩ = ⟨[], offset + byteLength blanks, none⟩ :=
    skipBlanks_eq h (by simp)
  rw [List.append_nil] at hskip
  apply pieces_of_none
  unfold nextPiece
  rw [hskip]

theorem takePiece_eq (h : lexeme c (tail ++ rest) = ⟨token?, tail⟩) (offset : Nat)
    : ∃ answer : LexAnswer,
        takePiece c (tail ++ rest) offset = (answer, ⟨rest, offset + byteLength (c :: tail), none⟩)
          ∧ answer.token? = token? ∧ answer.span = ⟨offset, offset + byteLength (c :: tail)⟩ := by
  unfold takePiece
  simp only [h, List.drop_left]
  cases token? with
  | none => exact ⟨_, rfl, rfl, rfl⟩
  | some token => exact ⟨_, rfl, rfl, rfl⟩

/-- Behind some blanks the next piece is taken, and then the pieces behind it. -/
theorem pieces_behind_blanks (hblanks : AllBlank blanks) (hc : isFilterBlank c = false)
    (h : lexeme c (tail ++ rest) = ⟨token?, tail⟩) (offset : Nat)
    : ∃ answer : LexAnswer,
        pieces ⟨blanks ++ (c :: tail ++ rest), offset, none⟩
            =
          answer :: pieces ⟨rest, offset + byteLength blanks + byteLength (c :: tail), none⟩
        ∧ answer.token? = token?
        ∧ answer.span
            = ⟨offset + byteLength blanks, offset + byteLength blanks + byteLength (c :: tail)⟩ := by
  obtain ⟨answer, htake, htoken, hspan⟩ := takePiece_eq h (offset + byteLength blanks)
  refine ⟨answer, ?_, htoken, hspan⟩
  apply pieces_of_some
  unfold nextPiece
  rw [skipBlanks_eq hblanks (by simpa using hc)]
  simp only [List.cons_append, htake]

/-- The pieces of a text lie in it, and each is the one that the scanner takes there. -/
theorem laid_visible_pieces (cs : List Char) (offset : Nat)
    : Laid IsVisiblePiece offset cs (pieces ⟨cs, offset, none⟩) := by
  obtain ⟨blanks, text, hcs, hblanks, htext⟩ := exists_blanks cs
  cases text with
  | nil =>
    rw [hcs, List.append_nil, pieces_of_allBlank hblanks]
    exact .done hblanks
  | cons c text =>
    obtain ⟨rest, hrest⟩ := tail_lexeme_prefix c text
    have hpiece : lexeme c ((lexeme c text).tail ++ rest)
        = ⟨(lexeme c text).token?, (lexeme c text).tail⟩ := by
      rw [hrest]
    obtain ⟨answer, hpieces, htoken, hspan⟩ :=
      pieces_behind_blanks hblanks (htext c rfl) hpiece offset
    have hcs' : cs = blanks ++ (c :: (lexeme c text).tail ++ rest) := by
      rw [List.cons_append, hrest, hcs]
    have hlt : rest.length < cs.length := by
      rw [hcs', List.length_append, List.length_append, List.length_cons]
      omega
    have hlaid := laid_visible_pieces rest
      (offset + byteLength blanks + byteLength (c :: (lexeme c text).tail))
    rw [hcs', hpieces]
    refine .piece hblanks (List.cons_ne_nil _ _) hspan ⟨⟨c, _, rfl, ?_⟩, htext⟩ hlaid
    rw [hpiece, htoken]
termination_by cs.length

theorem laid_pieces (cs : List Char) (offset : Nat)
    : Laid IsPiece offset cs (pieces ⟨cs, offset, none⟩) :=
  (laid_visible_pieces cs offset).imp fun _ _ _ h => h.piece

end Scanner

/-! Words that are put together. -/

namespace Token

/-- What is written at the place of a token, before the rest of the text. Behind a word no word goes on,
and no letter of another alphabet stands there either. -/
structure Written (token : Token) (text rest : List Char) : Prop where
  spaced : Spaced token.words text
  ends : token.isWord = true → ∀ c ∈ rest.head?, isWordChar c = false ∧ c.toNat < 128

theorem words_of_pairing? {first second : Token} {op : Operator}
    (h : first.pairing? = some (op, second))
    : (Token.operator op).words = first.words ++ second.words
        ∧ first.isWord = true ∧ second.isWord = true := by
  unfold pairing? at h
  split at h
  all_goals cases h
  all_goals exact ⟨rfl, rfl, rfl⟩

end Token

/-- An answer is a token, and it is written at its place. -/
def IsWritten (text rest : List Char) (answer : LexAnswer) : Prop :=
  ∃ token, answer.token? = some token ∧ token.Written text rest

variable {offset : Nat} {cs text rest blanks : List Char} {answer : LexAnswer} {token : Token}
  {answers joined : List LexAnswer}

theorem isWordChar_of_isWordStart {c : Char} (h : isWordStart c = true) : isWordChar c = true := by
  simp only [isWordStart, isWordChar, Char.isAlphanum, Bool.or_eq_true] at *
  tauto

theorem AllBlank.lt_128 (h : AllBlank blanks) : ∀ c ∈ blanks, c.toNat < 128 := by
  intro c hc
  rcases blank_eq (h c hc) with rfl | rfl | rfl | rfl <;> decide

theorem IsPiece.lexes (h : IsPiece text rest answer) (htoken : answer.token? = some token)
    : Lexes text rest token := by
  obtain ⟨c, tail, rfl, hlexeme⟩ := h
  rw [htoken] at hlexeme
  exact lexeme_eq_iff.1 hlexeme

theorem Lexes.written (h : Lexes text rest token) (hrest : ∀ c ∈ rest.head?, c.toNat < 128)
    : token.Written text rest := by
  constructor
  . rw [h.words_eq]
    simpa using Spaced.last (String.ofList text)
  . intro hword c hc
    exact ⟨(h.of_isWord hword).2 c hc, hrest c hc⟩

-- The second word cannot follow the first one without a blank, or both would be one word.
theorem blanks_ne_nil {first second : Token} {text' rest' : List Char} (hfirst : first.isWord = true)
    (hsecond : second.isWord = true) (h : Lexes text (blanks ++ (text' ++ rest)) first)
    (h' : Lexes text' rest' second) : blanks ≠ [] := by
  rintro rfl
  cases text' with
  | nil => exact h'.ne_nil rfl
  | cons c cs =>
    have hstart := (h'.of_isWord hsecond).1 c rfl
    have hend := (h.of_isWord hfirst).2 c rfl
    rw [isWordChar_of_isWordStart hstart] at hend
    cases hend

namespace Laid

theorem head_lt_128 (h : Laid IsPiece offset cs answers)
    (htokens : ∀ answer ∈ answers, answer.token? ≠ none) : ∀ c ∈ cs.head?, c.toNat < 128 := by
  intro c hc
  cases h with
  | done hblanks => exact hblanks.lt_128 c (List.mem_of_mem_head? hc)
  | @piece _ blanks text rest answer answers hblanks htext hspan hpiece hrest =>
    cases blanks with
    | cons d ds =>
      cases hc
      exact hblanks.lt_128 c List.mem_cons_self
    | nil =>
      obtain ⟨token, htoken⟩ := Option.ne_none_iff_exists'.1 (htokens answer List.mem_cons_self)
      cases text with
      | nil => exact absurd rfl htext
      | cons d ds => exact (hpiece.lexes htoken).lt_128 c hc

theorem joinWords_alone {first : SpannedToken} (h : Laid IsPiece offset cs (.ok first :: answers))
    (htokens : ∀ answer ∈ answers, answer.token? ≠ none)
    (hjoined : ∀ offset cs, Laid IsPiece offset cs answers → Laid IsWritten offset cs joined)
    : Laid IsWritten offset cs (.ok first :: joined) := by
  cases h with
  | piece hblanks htext hspan hpiece hrest =>
    have hwritten : first.value.Written _ _ := (hpiece.lexes rfl).written (hrest.head_lt_128 htokens)
    exact .piece hblanks htext hspan ⟨_, rfl, hwritten⟩ (hjoined _ _ hrest)

/-- An operator of two words lies where they and the blanks between them lay. -/
theorem joinWords_pair {first second : SpannedToken} {op : Operator}
    (h : Laid IsPiece offset cs (.ok first :: .ok second :: answers))
    (hpair : first.value.pairing? = some (op, second.value))
    (htokens : ∀ answer ∈ answers, answer.token? ≠ none)
    (hjoined : ∀ offset cs, Laid IsPiece offset cs answers → Laid IsWritten offset cs joined)
    : Laid IsWritten offset cs (.ok ⟨.operator op, first.span.merge second.span⟩ :: joined) := by
  obtain ⟨hwords, hfirst, hsecond⟩ := Token.words_of_pairing? hpair
  cases h with
  | @piece _ blanks text _ _ _ hblanks htext hspan hpiece hrest =>
    cases hrest with
    | @piece _ blanks' text' rest _ _ hblanks' htext' hspan' hpiece' hrest' =>
      have hlexes := hpiece.lexes rfl
      have hlexes' := hpiece'.lexes rfl
      have hne : blanks' ≠ [] := blanks_ne_nil hfirst hsecond hlexes hlexes'
      -- The text of the operator is that of both words, and the blanks between them become part of it.
      have hspaced : Spaced [String.ofList text, String.ofList text']
          ((String.ofList text).toList ++ blanks' ++ (String.ofList text').toList) :=
        .cons hne hblanks' (.last _)
      rw [hlexes.words_eq, hlexes'.words_eq, List.singleton_append] at hwords
      rw [String.toList_ofList, String.toList_ofList, ← hwords] at hspaced
      have hends := (hlexes'.written (hrest'.head_lt_128 htokens)).ends hsecond
      have hcs : blanks ++ (text ++ (blanks' ++ (text' ++ rest)))
          = blanks ++ (text ++ blanks' ++ text' ++ rest) := by
        simp
      rw [hcs]
      have hoffset : offset + byteLength blanks + byteLength text + byteLength blanks' + byteLength text'
          = offset + byteLength blanks + byteLength (text ++ blanks' ++ text') := by
        rw [byteLength_append, byteLength_append]
        omega
      rw [hoffset] at hrest' hspan'
      refine .piece hblanks (by simp [htext]) ?_ ⟨_, rfl, hspaced, fun _ => hends⟩ (hjoined _ _ hrest')
      simp only [LexAnswer.span] at hspan hspan' ⊢
      rw [hspan, hspan']
      exact Span.merge_eq (by dsimp only; omega) (by dsimp only; omega)

/-- Where all pieces are tokens, each token that is delivered is written at its place. -/
theorem joinWords (h : Laid IsPiece offset cs answers)
    (htokens : ∀ answer ∈ answers, answer.token? ≠ none)
    : Laid IsWritten offset cs (Scanner.joinWords answers) := by
  fun_induction Scanner.joinWords answers generalizing offset cs with
  | case1 =>
    cases h with
    | done hblanks => exact .done hblanks
  | case2 e answers ih => exact absurd rfl (htokens _ List.mem_cons_self)
  | case3 first op second rest hpair ih =>
    simp only [List.forall_mem_cons] at htokens
    exact h.joinWords_pair hpair htokens.2.2 fun offset cs hrest => ih hrest htokens.2.2
  | case4 first op word second rest hpair hword ih =>
    rw [List.forall_mem_cons] at htokens
    exact h.joinWords_alone htokens.2 fun offset cs hrest => ih hrest htokens.2
  | case5 first pair e rest hpair ih =>
    exact absurd rfl (htokens (.error e) (by simp))
  | case6 first answers hnot hnot' ih =>
    rw [List.forall_mem_cons] at htokens
    exact h.joinWords_alone htokens.2 fun offset cs hrest => ih hrest htokens.2

end Laid

/-- A fault among the pieces is delivered, so that a text without faults has none among its pieces. -/
theorem tokens_of_joinWords (h : ∀ answer ∈ Scanner.joinWords answers, answer.token? ≠ none)
    : ∀ answer ∈ answers, answer.token? ≠ none := by
  fun_induction Scanner.joinWords answers with
  | case1 => exact h
  | case2 e answers ih => exact absurd rfl (h _ List.mem_cons_self)
  | case3 first op second rest hpair ih =>
    simp only [List.forall_mem_cons] at h ⊢
    exact ⟨by simp [LexAnswer.token?], by simp [LexAnswer.token?], ih h.2⟩
  | case4 first op word second rest hpair hword ih =>
    rw [List.forall_mem_cons] at h ⊢
    exact ⟨h.1, ih h.2⟩
  | case5 first pair e rest hpair ih => exact absurd rfl (h _ List.mem_cons_self)
  | case6 first answers hnot hnot' ih =>
    rw [List.forall_mem_cons] at h ⊢
    exact ⟨h.1, ih h.2⟩

section

variable {source : String} {tokens : List SpannedToken}

theorem joinWords_of_tokenize (h : tokenize source = .ok tokens)
    : Scanner.joinWords (Scanner.ofText source.toList).pieces = tokens.map .ok := by
  rw [← Scanner.answers_eq_joinWords]
  exact Condition.tokenize_eq_ok.1 h

theorem tokens_of_tokenize (h : tokenize source = .ok tokens)
    : ∀ answer ∈ (Scanner.ofText source.toList).pieces, answer.token? ≠ none := by
  apply tokens_of_joinWords
  rw [joinWords_of_tokenize h]
  simp [LexAnswer.token?]

theorem laid_of_tokenize (h : tokenize source = .ok tokens)
    : Laid IsWritten 0 source.toList (tokens.map .ok) := by
  rw [← joinWords_of_tokenize h]
  exact (Scanner.laid_pieces source.toList 0).joinWords (tokens_of_tokenize h)

end

/-! Where the answers stand. -/

namespace Laid

variable {Stands : List Char → List Char → LexAnswer → Prop}

theorem place (h : Laid Stands offset cs answers) (hanswer : answer ∈ answers)
    : ∃ front text back, cs = front ++ (text ++ back) ∧ text ≠ []
        ∧ answer.span
            = ⟨offset + byteLength front, offset + byteLength front + byteLength text⟩
        ∧ Stands text back answer := by
  induction h with
  | done => cases hanswer
  | @piece offset blanks text rest first answers hblanks htext hspan hstands hrest ih =>
    rcases List.mem_cons.1 hanswer with rfl | hanswer
    . exact ⟨blanks, text, rest, rfl, htext, hspan, hstands⟩
    . obtain ⟨front, text', back, rfl, htext', hspan', hstands'⟩ := ih hanswer
      refine ⟨blanks ++ (text ++ front), text', back, by simp, htext', ?_, hstands'⟩
      rw [hspan']
      simp [Nat.add_assoc]

theorem pairwise (h : Laid Stands offset cs answers)
    : answers.Pairwise fun first second => first.span.stop ≤ second.span.start := by
  induction h with
  | done => exact .nil
  | @piece offset blanks text rest first answers hblanks htext hspan hstands hrest ih =>
    refine List.pairwise_cons.2 ⟨?_, ih⟩
    intro second hsecond
    obtain ⟨front, _, _, _, _, hspan', _⟩ := hrest.place hsecond
    rw [hspan, hspan']
    exact Nat.le_add_right _ _

/-- A byte at which no answer stands is a blank. -/
theorem blankAt (h : Laid Stands offset cs answers) {byte : Nat} (hbyte : byte < byteLength cs)
    (hout : ∀ answer ∈ answers, ¬answer.span.Covers (offset + byte)) : BlankAt cs byte := by
  induction h generalizing byte with
  | done hblanks => exact hblanks.blankAt hbyte
  | @piece offset blanks text rest first answers hblanks htext hspan hstands hrest ih =>
    obtain ⟨hfirst, hothers⟩ := List.forall_mem_cons.1 hout
    rw [hspan] at hfirst
    unfold Span.Covers at hfirst
    dsimp only at hfirst
    by_cases hbefore : byte < byteLength blanks
    . exact (hblanks.blankAt hbefore).append_right _
    . obtain ⟨behind, rfl⟩ : ∃ behind, byte = byteLength (blanks ++ text) + behind := by
        refine Nat.exists_eq_add_of_le ?_
        rw [byteLength_append]
        omega
      rw [← List.append_assoc]
      apply BlankAt.append_left
      apply ih
      . simp only [byteLength_append] at hbyte
        omega
      . intro answer hanswer
        have := hothers answer hanswer
        rwa [byteLength_append, ← Nat.add_assoc, ← Nat.add_assoc] at this

end Laid

/-- Nothing of a source is lost in its tokens. They stand in it in their order, each is written at its
place, and what is not written at the place of one of them are blanks. -/
structure Lossless (source : String) (tokens : List SpannedToken) : Prop where
  inside : ∀ token ∈ tokens,
    token.span.start < token.span.stop ∧ token.span.stop ≤ source.utf8ByteSize
  in_order : tokens.Pairwise fun first second => first.span.stop ≤ second.span.start
  blank_between : ∀ byte < source.utf8ByteSize, (∀ token ∈ tokens, ¬token.span.Covers byte)
    → BlankAt source.toList byte
  written : ∀ token ∈ tokens, ∃ front text back, source.toList = front ++ (text ++ back)
    ∧ token.span = ⟨byteLength front, byteLength front + byteLength text⟩
    ∧ token.value.Written text back

theorem tokenize_lossless {source : String} {tokens : List SpannedToken}
    (h : tokenize source = .ok tokens) : Lossless source tokens := by
  have hlaid := laid_of_tokenize h
  have hplace : ∀ token ∈ tokens, ∃ front text back, source.toList = front ++ (text ++ back) ∧ text ≠ []
      ∧ token.span = ⟨byteLength front, byteLength front + byteLength text⟩
      ∧ token.value.Written text back := by
    intro token htoken
    obtain ⟨front, text, back, hsource, htext, hspan, value, hvalue, hwritten⟩ :=
      hlaid.place (List.mem_map_of_mem htoken)
    cases hvalue
    rw [Nat.zero_add] at hspan
    exact ⟨front, text, back, hsource, htext, hspan, hwritten⟩
  constructor
  . intro token htoken
    obtain ⟨front, text, back, hsource, htext, hspan, -⟩ := hplace token htoken
    have hpos := byteLength_pos htext
    rw [← byteLength_toList, hsource, hspan, byteLength_append, byteLength_append]
    dsimp only
    omega
  . have hpairwise := hlaid.pairwise
    rwa [List.pairwise_map] at hpairwise
  . intro byte hbyte hout
    rw [← byteLength_toList] at hbyte
    apply hlaid.blankAt hbyte
    simpa [LexAnswer.span] using hout
  . intro token htoken
    obtain ⟨front, text, back, hsource, -, hspan, hwritten⟩ := hplace token htoken
    exact ⟨front, text, back, hsource, hspan, hwritten⟩

/-- Words with two blanks and a tab between them, and a quotation that contains blanks. -/
theorem tokenize_lossless_of_spread_words
    : ∃ tokens, tokenize "starts  with(not\tin '? é')" = .ok tokens
        ∧ tokens.map (·.span) = [⟨0, 12⟩, ⟨12, 13⟩, ⟨13, 19⟩, ⟨20, 26⟩, ⟨26, 27⟩]
        ∧ Lossless "starts  with(not\tin '? é')" tokens := by
  have htokens : tokenize "starts  with(not\tin '? é')"
      = .ok [⟨.operator .startsWith, ⟨0, 12⟩⟩, ⟨.leftParen, ⟨12, 13⟩⟩, ⟨.operator .notIn, ⟨13, 19⟩⟩,
        ⟨.literal "'? é'", ⟨20, 26⟩⟩, ⟨.rightParen, ⟨26, 27⟩⟩] := by
    decide +kernel
  exact ⟨_, htokens, rfl, tokenize_lossless htokens⟩

end ObjectStore
