import ObjectStore.Proofs.Filter.Layout

/-!
This module proves that blanks between the words of a text say nothing. A text that consists of the
words of certain tokens, with blanks between them, is split into these tokens again. The pieces are the
words, by induction on them, since each one is followed by a blank or by the end of the text. How words
are put together depends on the words only.
-/

namespace ObjectStore

namespace LexAnswer

theorem token?_eq_some {answer : LexAnswer} {token : Token}
    : answer.token? = some token
        ↔
      ∃ spanned : SpannedToken, answer = .ok spanned ∧ spanned.value = token := by
  cases answer <;> simp [token?]

theorem token?_eq_none {answer : LexAnswer} : answer.token? = none ↔ ∃ e, answer = .error e := by
  cases answer <;> simp [token?]

/-- The words that a token is written with. A fault has none. -/
def words (answer : LexAnswer) : List String :=
  answer.token?.elim [] Token.words

end LexAnswer

/-- A text of several words begins with the first one, and if it is not the last one, then blanks come
behind it. -/
theorem spaced_cons {word : String} {words : List String} {cs : List Char}
    : Spaced (word :: words) cs
        ↔
      ∃ blanks rest, cs = word.toList ++ (blanks ++ rest) ∧ AllBlank blanks ∧ (blanks = [] ↔ words = [])
        ∧ Spaced words rest := by
  constructor
  . intro h
    cases h with
    | last => exact ⟨[], [], by simp, by simp [AllBlank], by simp, .nil⟩
    | cons hne hblanks hrest =>
      exact ⟨_, _, List.append_assoc .., hblanks, by simp [hne], hrest⟩
  . rintro ⟨blanks, rest, rfl, hblanks, hend, hrest⟩
    cases hrest with
    | nil =>
      rw [hend.2 rfl]
      simpa using Spaced.last word
    | last word' =>
      rw [← List.append_assoc]
      exact .cons (by simp [hend]) hblanks (.last word')
    | cons hne hblanks' hrest =>
      rw [← List.append_assoc]
      exact .cons (by simp [hend]) hblanks (.cons hne hblanks' hrest)

/-- A token that is a single piece of a text. -/
def Token.IsOneWord (token : Token) : Prop :=
  ∃ word rest, token.words = [word] ∧ Lexes word.toList rest token

namespace Scanner

open Condition

variable {answers answers' : List LexAnswer} {tokens : List Token} {cs : List Char}

/-- Words apart from each other are the pieces of their text. -/
theorem spells_pieces (htokens : ∀ token ∈ tokens, token.IsOneWord)
    (hcs : Spaced (tokens.flatMap Token.words) cs) {before after : List Char} (hbefore : AllBlank before)
    (hafter : AllBlank after) (offset : Nat)
    : Spells (pieces ⟨before ++ (cs ++ after), offset, none⟩) tokens := by
  induction tokens generalizing cs before offset with
  | nil =>
    cases hcs with
    | nil =>
      have hblank : AllBlank (before ++ ([] ++ after)) := by
        intro c hc
        rcases List.mem_append.1 hc with hc | hc
        . exact hbefore c hc
        . exact hafter c hc
      rw [spells_nil]
      exact pieces_of_allBlank hblank offset
  | cons token tokens ih =>
    rw [List.forall_mem_cons] at htokens
    obtain ⟨⟨word, behind, hwords, hlexes⟩, htokens⟩ := htokens
    rw [List.flatMap_cons, hwords, List.singleton_append, spaced_cons] at hcs
    obtain ⟨blanks, rest, rfl, hblanks, hend, hrest⟩ := hcs
    have hblank : ∀ d ∈ (blanks ++ (rest ++ after)).head?, isFilterBlank d = true := by
      intro d hd
      cases blanks with
      | cons c cs =>
        cases hd
        exact hblanks d List.mem_cons_self
      | nil =>
        rw [hend.1 rfl] at hrest
        cases hrest with
        | nil => exact hafter d (List.mem_of_mem_head? hd)
    obtain ⟨c, tail, hword⟩ := List.exists_cons_of_ne_nil hlexes.ne_nil
    rw [hword] at hlexes
    obtain ⟨answer, hpieces, htoken, -⟩ := pieces_behind_blanks hbefore hlexes.not_blank
      (lexeme_eq_iff.2 (hlexes.of_blank hblank)) offset
    obtain ⟨spanned, rfl, rfl⟩ := LexAnswer.token?_eq_some.1 htoken
    rw [List.append_assoc, List.append_assoc, hword, hpieces, spells_cons]
    exact ⟨spanned.span, _, rfl, ih htokens hrest hblanks _⟩

/-- The pieces of a text without faults are single words. -/
theorem isOneWord_of_laid {offset : Nat} (h : Laid IsPiece offset cs answers) {token : Token}
    (htoken : some token ∈ answers.map LexAnswer.token?) : token.IsOneWord := by
  obtain ⟨answer, hanswer, htoken⟩ := List.mem_map.1 htoken
  obtain ⟨_, text, rest, _, _, _, hpiece⟩ := h.place hanswer
  have hlexes := hpiece.lexes htoken
  refine ⟨String.ofList text, rest, hlexes.words_eq, ?_⟩
  rwa [String.toList_ofList]

theorem map_token?_cons_ok {first : SpannedToken}
    (h : (.ok first :: answers).map LexAnswer.token? = answers'.map LexAnswer.token?)
    : ∃ (first' : SpannedToken) (rest : List LexAnswer),
        answers' = .ok first' :: rest ∧ first'.value = first.value
          ∧ answers.map LexAnswer.token? = rest.map LexAnswer.token? := by
  obtain ⟨_, rest, rfl, hfirst, hrest⟩ := List.map_eq_cons_iff.1 h.symm
  obtain ⟨first', rfl, hvalue⟩ := LexAnswer.token?_eq_some.1 hfirst
  exact ⟨first', rest, rfl, hvalue, hrest.symm⟩

theorem map_token?_cons_error {e : ParseError}
    (h : (.error e :: answers).map LexAnswer.token? = answers'.map LexAnswer.token?)
    : ∃ (e' : ParseError) (rest : List LexAnswer),
        answers' = .error e' :: rest ∧ answers.map LexAnswer.token? = rest.map LexAnswer.token? := by
  obtain ⟨_, rest, rfl, hfirst, hrest⟩ := List.map_eq_cons_iff.1 h.symm
  obtain ⟨e', rfl⟩ := LexAnswer.token?_eq_none.1 hfirst
  exact ⟨e', rest, rfl, hrest.symm⟩

/-- Which tokens come out when words are put together depends on the words only. -/
theorem map_token?_joinWords (h : answers.map LexAnswer.token? = answers'.map LexAnswer.token?)
    : (joinWords answers).map LexAnswer.token? = (joinWords answers').map LexAnswer.token? := by
  fun_induction joinWords answers generalizing answers' with
  | case1 =>
    rw [List.map_nil, eq_comm, List.map_eq_nil_iff] at h
    rw [h, joinWords]
  | case2 e answers ih =>
    obtain ⟨e', rest', rfl, hrest⟩ := map_token?_cons_error h
    rw [joinWords, List.map_cons, List.map_cons, ih hrest]
    rfl
  | case3 first op second rest hpair ih =>
    obtain ⟨first', _, rfl, hfirst, hbehind⟩ := map_token?_cons_ok h
    obtain ⟨second', rest', rfl, hsecond, hrest⟩ := map_token?_cons_ok hbehind
    rw [← hfirst, ← hsecond] at hpair
    rw [joinWords_pair op hpair, List.map_cons, List.map_cons, ih hrest]
    rfl
  | case4 first op word second rest hpair hword ih =>
    obtain ⟨first', _, rfl, hfirst, hbehind⟩ := map_token?_cons_ok h
    obtain ⟨second', rest', rfl, hsecond, hrest⟩ := map_token?_cons_ok hbehind
    have happart : ∀ op word, first'.value.pairing? = some (op, word) → second'.value ≠ word := by
      rw [hfirst, hsecond, hpair]
      rintro op word ⟨⟩
      exact hword
    rw [joinWords_apart happart, List.map_cons, List.map_cons, ih hbehind]
    exact congrArg (· :: _) (congrArg some hfirst.symm)
  | case5 first pair e rest hpair ih =>
    obtain ⟨first', _, rfl, hfirst, hbehind⟩ := map_token?_cons_ok h
    obtain ⟨e', rest', rfl, hrest⟩ := map_token?_cons_error hbehind
    rw [← hfirst] at hpair
    rw [joinWords_fault hpair, List.map_cons, List.map_cons, ih hrest]
    rfl
  | case6 first answers hnot hnot' ih =>
    obtain ⟨first', rest', rfl, hfirst, hrest⟩ := map_token?_cons_ok h
    have halone : joinWords (.ok first' :: rest') = .ok first' :: joinWords rest' := by
      cases hpair : first'.value.pairing? with
      | none => exact joinWords_alone hpair
      | some pair =>
        rw [hfirst] at hpair
        cases answers with
        | nil =>
          rw [List.map_nil, eq_comm, List.map_eq_nil_iff] at hrest
          rw [hrest, joinWords_last, joinWords]
        | cons second rest =>
          cases second with
          | ok second => exact absurd rfl (hnot pair.1 pair.2 second rest hpair)
          | error e => exact absurd rfl (hnot' pair e rest hpair)
    rw [halone, List.map_cons, List.map_cons, ih hrest]
    exact congrArg (· :: _) (congrArg some hfirst.symm)

/-- Putting words together keeps them. -/
theorem flatMap_words_joinWords (htokens : ∀ answer ∈ answers, answer.token? ≠ none)
    : (joinWords answers).flatMap LexAnswer.words = answers.flatMap LexAnswer.words := by
  fun_induction joinWords answers with
  | case1 => rfl
  | case2 e answers ih => exact absurd rfl (htokens _ List.mem_cons_self)
  | case3 first op second rest hpair ih =>
    simp only [List.forall_mem_cons] at htokens
    obtain ⟨hwords, -, -⟩ := Token.words_of_pairing? hpair
    rw [List.flatMap_cons, List.flatMap_cons, List.flatMap_cons, ih htokens.2.2, ← List.append_assoc]
    congr 1
  | case4 first op word second rest hpair hword ih =>
    rw [List.forall_mem_cons] at htokens
    rw [List.flatMap_cons, ih htokens.2, ← List.flatMap_cons]
  | case5 first pair e rest hpair ih =>
    exact absurd rfl (htokens (.error e) (by simp))
  | case6 first answers hnot hnot' ih =>
    rw [List.forall_mem_cons] at htokens
    rw [List.flatMap_cons, ih htokens.2, List.flatMap_cons]

theorem exists_spells (htokens : ∀ answer ∈ answers, answer.token? ≠ none)
    : ∃ tokens, Spells answers tokens := by
  induction answers with
  | nil => exact ⟨[], rfl⟩
  | cons answer answers ih =>
    rw [List.forall_mem_cons] at htokens
    obtain ⟨token, htoken⟩ := Option.ne_none_iff_exists'.1 htokens.1
    obtain ⟨tokens, hspells⟩ := ih htokens.2
    refine ⟨token :: tokens, ?_⟩
    unfold Spells at hspells ⊢
    rw [List.map_cons, List.map_cons, htoken, hspells]

theorem flatMap_words_of_spells (h : Spells answers tokens)
    : answers.flatMap LexAnswer.words = tokens.flatMap Token.words := by
  have hwords : (answers.map LexAnswer.token?).flatMap (·.elim [] Token.words)
      = (tokens.map some).flatMap (·.elim [] Token.words) := by
    rw [h]
  rwa [List.flatMap_map, List.flatMap_map] at hwords

end Scanner

open Scanner Condition

/-- A text is split into the tokens of another one if it consists of their words, with any blanks
between them, before them and behind them. -/
theorem tokenize_respaced {source text : String} {tokens : List SpannedToken}
    {before cs after : List Char} (h : tokenize source = .ok tokens)
    (hcs : Spaced (tokens.flatMap (·.value.words)) cs) (hbefore : AllBlank before)
    (hafter : AllBlank after) (htext : text.toList = before ++ (cs ++ after))
    : ∃ tokens', tokenize text = .ok tokens' ∧ tokens'.map (·.value) = tokens.map (·.value) := by
  have hjoined := joinWords_of_tokenize h
  have htokens := tokens_of_tokenize h
  obtain ⟨parts, hparts⟩ := exists_spells htokens
  have hwords : tokens.flatMap (·.value.words) = parts.flatMap Token.words := by
    rw [← flatMap_words_of_spells hparts, ← flatMap_words_joinWords htokens, hjoined, List.flatMap_map]
    rfl
  have hpieces : ∀ part ∈ parts, part.IsOneWord := by
    intro part hpart
    apply isOneWord_of_laid (laid_pieces source.toList 0)
    have hmem : some part ∈ parts.map some := List.mem_map_of_mem hpart
    rwa [← hparts] at hmem
  have hrespaced : Spells (ofText text.toList).pieces parts := by
    rw [htext]
    exact spells_pieces hpieces (hwords ▸ hcs) hbefore hafter 0
  have hsame : (lexAnswers text).map LexAnswer.token? = (tokens.map (·.value)).map some := by
    unfold lexAnswers
    rw [answers_eq_joinWords, map_token?_joinWords (hrespaced.trans hparts.symm), hjoined, List.map_map,
      List.map_map]
    rfl
  obtain ⟨tokens', htokens', hvalues⟩ := spells_iff.1 hsame
  exact ⟨tokens', tokenize_eq_ok.2 htokens', hvalues.symm⟩

/-- Words that begin an operator, twice in a row, and tokens without blanks between them. -/
theorem tokenize_respaced_of_repeated_words
    : ∃ tokens tokens', tokenize "starts starts with(not not in'a b'" = .ok tokens
        ∧ tokenize "\nstarts\tstarts  with ( not not \r\n in 'a b' " = .ok tokens'
        ∧ tokens'.map (·.value) = tokens.map (·.value)
        ∧ tokens.map (·.value) = [.identifier "starts", .operator .startsWith, .leftParen,
          .identifier "not", .operator .notIn, .literal "'a b'"] := by
  have htokens : tokenize "starts starts with(not not in'a b'"
      = .ok [⟨.identifier "starts", ⟨0, 6⟩⟩, ⟨.operator .startsWith, ⟨7, 18⟩⟩, ⟨.leftParen, ⟨18, 19⟩⟩,
        ⟨.identifier "not", ⟨19, 22⟩⟩, ⟨.operator .notIn, ⟨23, 29⟩⟩, ⟨.literal "'a b'", ⟨29, 34⟩⟩] := by
    decide +kernel
  have hspaced : Spaced ["starts", "starts", "with", "(", "not", "not", "in", "'a b'"]
      ("starts".toList ++ ['\t'] ++ ("starts".toList ++ [' ', ' '] ++ ("with".toList ++ [' ']
        ++ ("(".toList ++ [' '] ++ ("not".toList ++ [' '] ++ ("not".toList ++ [' ', '\r', '\n', ' ']
          ++ ("in".toList ++ [' '] ++ "'a b'".toList))))))) := by
    repeat apply Spaced.cons (by decide) (by decide)
    exact .last _
  obtain ⟨tokens', htokens', hvalues⟩ : ∃ tokens',
      tokenize "\nstarts\tstarts  with ( not not \r\n in 'a b' " = .ok tokens'
        ∧ tokens'.map (·.value) = _ :=
    tokenize_respaced htokens hspaced (show AllBlank ['\n'] by decide) (show AllBlank [' '] by decide)
      (by decide +kernel)
  exact ⟨_, tokens', htokens, htokens', hvalues, rfl⟩

end ObjectStore
