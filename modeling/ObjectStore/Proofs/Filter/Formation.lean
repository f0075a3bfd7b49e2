import ObjectStore.Proofs.Filter.Placement

/-!
This module proves what the parser has read when it is done. A condition is formed by the answers that
were taken for it, places included, and the parser fails at the first answer that does not fit or at
the end of the text. Both follow the readers, by induction on the answers that are left. All answers
that were taken are tokens that a filter can have.
-/

namespace ObjectStore

namespace Condition

/-- The answers that a condition is read from, with its places. -/
inductive FormedBy : List LexAnswer → Condition → Prop where
  | comparison {name : String} {op : Spanned Operator} {n : Nat} {span span' : Span}
    : FormedBy
      [.ok ⟨.identifier name, span⟩, .ok ⟨.operator op.value, op.span⟩, .ok ⟨.placeholder, span'⟩]
      (comparison ⟨name, span⟩ op ⟨n, span'⟩)
  | group {front : List LexAnswer} {c : Condition} {span span' : Span} (h : FormedBy front c)
    : FormedBy (.ok ⟨.leftParen, span⟩ :: (front ++ [.ok ⟨.rightParen, span'⟩])) c
  | andAlso {front front' : List LexAnswer} {left right : Condition} {span : Span}
    (h : FormedBy front left) (h' : FormedBy front' right)
    : FormedBy (front ++ .ok ⟨.and, span⟩ :: front') (left.andAlso right)
  | orElse {front front' : List LexAnswer} {left right : Condition} {span : Span}
    (h : FormedBy front left) (h' : FormedBy front' right)
    : FormedBy (front ++ .ok ⟨.or, span⟩ :: front') (left.orElse right)

/-- A reader has taken the answers in front of the rest for the condition, and knows the length of the
text as before. -/
def Formed (st : ReadState) (answers : List LexAnswer) (c : Condition) (st' : ReadState)
    (rest : List LexAnswer) : Prop :=
  ∃ front, answers = front ++ rest ∧ FormedBy front c ∧ st'.sourceLength = st.sourceLength

/-- Behind the answers that form a part of a chain, a reader has taken more of them for the chain. -/
def FormedBehind (before : List LexAnswer) (st : ReadState) (answers : List LexAnswer) (c : Condition)
    (st' : ReadState) (rest : List LexAnswer) : Prop :=
  ∃ front, answers = front ++ rest ∧ FormedBy (before ++ front) c ∧ st'.sourceLength = st.sourceLength

section

variable {st st₁ st' : ReadState} {before answers rest₁ rest : List LexAnswer} {left right c : Condition}

theorem FormedBy.whole (h : FormedBy before c) : FormedBehind before st rest c st rest :=
  ⟨[], rfl, by rwa [List.append_nil], rfl⟩

theorem Formed.chain (h : Formed st answers left st₁ rest₁)
    (htail : ∀ front, FormedBy front left → FormedBehind front st₁ rest₁ c st' rest)
    : Formed st answers c st' rest := by
  obtain ⟨front, rfl, hfront, hlength⟩ := h
  obtain ⟨front', rfl, hfront', hlength'⟩ := htail front hfront
  exact ⟨front ++ front', by simp, hfront', hlength'.trans hlength⟩

theorem Formed.joined {joined : Condition} {connective : LexAnswer}
    (h : Formed st answers right st₁ rest₁)
    (hjoin : ∀ front, FormedBy front right → FormedBy (before ++ connective :: front) joined)
    (htail : ∀ front, FormedBy front joined → FormedBehind front st₁ rest₁ c st' rest)
    : FormedBehind before st (connective :: answers) c st' rest := by
  obtain ⟨front, rfl, hfront, hlength⟩ := h
  obtain ⟨front', rfl, hfront', hlength'⟩ := htail _ (hjoin front hfront)
  exact ⟨connective :: (front ++ front'), by simp, by simpa using hfront', hlength'.trans hlength⟩

end

mutual

theorem formed_of_takes_term {st st' : ReadState} {answers rest : List LexAnswer} {c : Condition}
    (h : Takes (takeTerm st answers) c st' rest) : Formed st answers c st' rest := by
  obtain ⟨span, answers', rfl⟩ | ⟨name, span, answers', rfl⟩ := opening_of_takes_takeTerm h
  . obtain ⟨span', hinner⟩ := takes_takeTerm_group.mp h
    obtain ⟨front, rfl, hfront, hlength⟩ := formed_of_takes_expr hinner
    exact ⟨.ok ⟨.leftParen, span⟩ :: (front ++ [.ok ⟨.rightParen, span'⟩]), by simp, hfront.group, hlength⟩
  . obtain ⟨op, span', rfl, rfl, rfl⟩ := takes_takeComparison.mp (takes_takeTerm_comparison.mp h)
    exact ⟨_, rfl, .comparison, rfl⟩
termination_by (answers.length, 0)

theorem formed_of_takes_and {st st' : ReadState} {answers rest : List LexAnswer} {c : Condition}
    (h : Takes (takeAnd st answers) c st' rest) : Formed st answers c st' rest := by
  obtain ⟨left, st₁, rest₁, hleft, htail⟩ := takes_takeAnd.mp h
  have hlt := hleft.length_lt
  exact (formed_of_takes_term hleft).chain fun _ hfront => formed_of_takes_and_tail hfront htail
termination_by (answers.length, 1)

theorem formed_of_takes_and_tail {st st' : ReadState} {before answers rest : List LexAnswer}
    {c left : Condition} (hleft : FormedBy before left)
    (h : Takes (takeAndTail st left answers) c st' rest) : FormedBehind before st answers c st' rest := by
  obtain ⟨span, answers', rfl⟩ | ⟨rfl, rfl, rfl⟩ := connective_of_takes_takeAndTail h
  . obtain ⟨right, st₁, rest₁, hright, htail⟩ := takes_takeAndTail_and.mp h
    have hlt := Nat.lt_succ_of_lt hright.length_lt
    exact (formed_of_takes_term hright).joined (fun _ hfront => hleft.andAlso hfront)
      fun _ hfront => formed_of_takes_and_tail hfront htail
  . exact hleft.whole
termination_by (answers.length, 2)

theorem formed_of_takes_expr {st st' : ReadState} {answers rest : List LexAnswer} {c : Condition}
    (h : Takes (takeExpr st answers) c st' rest) : Formed st answers c st' rest := by
  obtain ⟨left, st₁, rest₁, hleft, htail⟩ := takes_takeExpr.mp h
  have hlt := hleft.length_lt
  exact (formed_of_takes_and hleft).chain fun _ hfront => formed_of_takes_expr_tail hfront htail
termination_by (answers.length, 3)

theorem formed_of_takes_expr_tail {st st' : ReadState} {before answers rest : List LexAnswer}
    {c left : Condition} (hleft : FormedBy before left)
    (h : Takes (takeExprTail st left answers) c st' rest) : FormedBehind before st answers c st' rest := by
  obtain ⟨span, answers', rfl⟩ | ⟨rfl, rfl, rfl⟩ := connective_of_takes_takeExprTail h
  . obtain ⟨right, st₁, rest₁, hright, htail⟩ := takes_takeExprTail_or.mp h
    have hlt := Nat.lt_succ_of_lt hright.length_lt
    exact (formed_of_takes_and hright).joined (fun _ hfront => hleft.orElse hfront)
      fun _ hfront => formed_of_takes_expr_tail hfront htail
  . exact hleft.whole
termination_by (answers.length, 4)

end

/-- The answers that a condition is formed by are tokens that a filter can have. -/
theorem FormedBy.isPlain {answers : List LexAnswer} {c : Condition} (h : FormedBy answers c)
    : ∀ answer ∈ answers, answer.IsPlain := by
  induction h with
  | comparison =>
    simp only [List.forall_mem_cons]
    exact ⟨⟨_, rfl, rfl⟩, ⟨_, rfl, rfl⟩, ⟨_, rfl, rfl⟩, List.forall_mem_nil _⟩
  | group _ ih =>
    rw [List.forall_mem_cons, List.forall_mem_append, List.forall_mem_singleton]
    exact ⟨⟨_, rfl, rfl⟩, ih, ⟨_, rfl, rfl⟩⟩
  | andAlso _ _ ih ih' | orElse _ _ ih ih' =>
    rw [List.forall_mem_append, List.forall_mem_cons]
    exact ⟨ih, ⟨_, rfl, rfl⟩, ih'⟩

/-! Where reading stops. -/

/-- The place where reading fails: an answer, the end of the text, or all of the text behind a token.
The answers in front of it are tokens that a filter can have. -/
inductive StopsAt (sourceLength : Nat) : List LexAnswer → Span → Prop where
  | there {front back : List LexAnswer} {answer : LexAnswer} (hfront : ∀ a ∈ front, a.IsPlain)
    : StopsAt sourceLength (front ++ answer :: back) answer.span
  | atEnd {front : List LexAnswer} (hfront : ∀ a ∈ front, a.IsPlain)
    : StopsAt sourceLength front ⟨sourceLength, sourceLength⟩
  | behind {front : List LexAnswer} {answer : LexAnswer} (hfront : ∀ a ∈ front, a.IsPlain)
    (hanswer : answer.IsPlain)
    : StopsAt sourceLength (front ++ [answer]) ⟨answer.span.stop, sourceLength⟩

variable {sourceLength : Nat} {answers before : List LexAnswer} {span : Span}

theorem StopsAt.append (h : StopsAt sourceLength answers span) (hbefore : ∀ a ∈ before, a.IsPlain)
    : StopsAt sourceLength (before ++ answers) span := by
  cases h with
  | there hfront =>
    rw [← List.append_assoc]
    exact .there (List.forall_mem_append.2 ⟨hbefore, hfront⟩)
  | atEnd hfront => exact .atEnd (List.forall_mem_append.2 ⟨hbefore, hfront⟩)
  | behind hfront hanswer =>
    rw [← List.append_assoc]
    exact .behind (List.forall_mem_append.2 ⟨hbefore, hfront⟩) hanswer

theorem StopsAt.cons {token : SpannedToken} (h : StopsAt sourceLength answers span)
    (htoken : token.value.isPlain = true) : StopsAt sourceLength (.ok token :: answers) span := by
  rw [← List.singleton_append]
  exact h.append (List.forall_mem_singleton.2 ⟨_, rfl, htoken⟩)

theorem stopsAt_head (answer : LexAnswer) (answers : List LexAnswer)
    : StopsAt sourceLength (answer :: answers) answer.span := by
  rw [← List.nil_append (answer :: answers)]
  exact .there (List.forall_mem_nil _)

theorem stopsAt_behind {answer : LexAnswer} (hanswer : answer.IsPlain)
    : StopsAt sourceLength [answer] ⟨answer.span.stop, sourceLength⟩ := by
  rw [← List.nil_append [answer]]
  exact .behind (List.forall_mem_nil _) hanswer

theorem stopsAt_nil : StopsAt sourceLength [] ⟨sourceLength, sourceLength⟩ :=
  .atEnd (List.forall_mem_nil _)

/-- Reading can stop behind what a reader has taken. -/
theorem Formed.stopsAt {st st' : ReadState} {rest : List LexAnswer} {c : Condition}
    (h : Formed st answers c st' rest) (hstops : StopsAt st'.sourceLength rest span)
    : StopsAt st.sourceLength answers span := by
  obtain ⟨front, rfl, hfront, hlength⟩ := h
  rw [← hlength]
  exact hstops.append hfront.isPlain

variable {st : ReadState} {e : ParseError}

theorem stopsAt_of_takeToken (h : takeToken st answers = .error e)
    : StopsAt st.sourceLength answers e.span := by
  unfold takeToken at h
  split at h
  . cases h
    exact stopsAt_nil
  . cases h
    exact stopsAt_head (.error e) _
  . cases h

theorem stopsAt_of_takePlaceholder (h : takePlaceholder st answers = .error e)
    : StopsAt st.sourceLength answers e.span := by
  unfold takePlaceholder at h
  obtain h | ⟨⟨token, rest⟩, htoken, h⟩ := bind_eq_error.1 h
  . exact stopsAt_of_takeToken h
  . rw [takeToken_eq_ok.1 htoken]
    dsimp only at h
    split at h
    . cases h
    . cases h
      exact stopsAt_head (.ok token) _

/-- A comparison can stop behind its field, which is in front of the answers. -/
theorem stopsAt_of_takeComparison {field : Spanned String}
    (h : takeComparison st field answers = .error e)
    : StopsAt st.sourceLength (.ok ⟨.identifier field.value, field.span⟩ :: answers) e.span := by
  unfold takeComparison at h
  obtain h | ⟨⟨op, rest⟩, hop, h⟩ := bind_eq_error.1 h
  . unfold takeOperator at h
    split at h
    . cases h
      exact stopsAt_behind ⟨_, rfl, rfl⟩
    . cases h
      exact (stopsAt_head (.error e) _).cons rfl
    . next token rest _ =>
      split at h
      . cases h
      . cases h
        exact (stopsAt_head (.ok token) _).cons rfl
  . rw [takeOperator_eq_ok.1 hop]
    obtain h | ⟨_, _, h⟩ := bind_eq_error.1 h
    . exact ((stopsAt_of_takePlaceholder h).cons rfl).cons rfl
    . cases h

mutual

theorem stopsAt_of_takeTerm {st : ReadState} {answers : List LexAnswer} {e : ParseError}
    (h : takeTerm st answers = .error e) : StopsAt st.sourceLength answers e.span := by
  unfold takeTerm at h
  split at h
  . cases h
    exact stopsAt_nil
  . cases h
    exact stopsAt_head (.error e) _
  . next token span answers' =>
    split at h
    . obtain h | ⟨⟨inner, st₁, rest, hrest⟩, hinner, h⟩ := bind_eq_error.1 h
      . exact (stopsAt_of_takeExpr h).cons rfl
      . apply StopsAt.cons _ rfl
        apply (formed_of_takes_expr ⟨hrest, hinner⟩).stopsAt
        obtain h | ⟨⟨close, rest'⟩, hclose, h⟩ := bind_eq_error.1 h
        . exact stopsAt_of_takeToken h
        . rw [takeToken_eq_ok.1 hclose]
          dsimp only at h
          split at h
          . cases h
          . cases h
            exact stopsAt_head (.ok close) _
    . obtain h | ⟨_, _, h⟩ := bind_eq_error.1 h
      . exact stopsAt_of_takeComparison h
      . cases h
    . cases h
      exact stopsAt_head (.ok ⟨token, span⟩) _
termination_by (answers.length, 0)

theorem stopsAt_of_takeAnd {st : ReadState} {answers : List LexAnswer} {e : ParseError}
    (h : takeAnd st answers = .error e) : StopsAt st.sourceLength answers e.span := by
  unfold takeAnd at h
  obtain h | ⟨⟨left, st₁, rest, hrest⟩, hleft, h⟩ := bind_eq_error.1 h
  . exact stopsAt_of_takeTerm h
  . have hlt : rest.length < answers.length := hrest
    obtain h | ⟨_, _, h⟩ := bind_eq_error.1 h
    . exact (formed_of_takes_term ⟨hrest, hleft⟩).stopsAt (stopsAt_of_takeAndTail h)
    . cases h
termination_by (answers.length, 1)

theorem stopsAt_of_takeAndTail {st : ReadState} {left : Condition} {answers : List LexAnswer}
    {e : ParseError} (h : takeAndTail st left answers = .error e)
    : StopsAt st.sourceLength answers e.span := by
  rw [takeAndTail.eq_def] at h
  split at h
  . cases h
    exact stopsAt_head (.error e) _
  . next span answers' =>
    apply StopsAt.cons _ rfl
    obtain h | ⟨⟨right, st₁, rest, hrest⟩, hright, h⟩ := bind_eq_error.1 h
    . exact stopsAt_of_takeTerm h
    . have hlt : rest.length < answers'.length + 1 := Nat.lt_succ_of_lt hrest
      obtain h | ⟨_, _, h⟩ := bind_eq_error.1 h
      . exact (formed_of_takes_term ⟨hrest, hright⟩).stopsAt (stopsAt_of_takeAndTail h)
      . cases h
  . cases h
termination_by (answers.length, 2)

theorem stopsAt_of_takeExpr {st : ReadState} {answers : List LexAnswer} {e : ParseError}
    (h : takeExpr st answers = .error e) : StopsAt st.sourceLength answers e.span := by
  unfold takeExpr at h
  obtain h | ⟨⟨left, st₁, rest, hrest⟩, hleft, h⟩ := bind_eq_error.1 h
  . exact stopsAt_of_takeAnd h
  . have hlt : rest.length < answers.length := hrest
    obtain h | ⟨_, _, h⟩ := bind_eq_error.1 h
    . exact (formed_of_takes_and ⟨hrest, hleft⟩).stopsAt (stopsAt_of_takeExprTail h)
    . cases h
termination_by (answers.length, 3)

theorem stopsAt_of_takeExprTail {st : ReadState} {left : Condition} {answers : List LexAnswer}
    {e : ParseError} (h : takeExprTail st left answers = .error e)
    : StopsAt st.sourceLength answers e.span := by
  rw [takeExprTail.eq_def] at h
  split at h
  . cases h
    exact stopsAt_head (.error e) _
  . next span answers' =>
    apply StopsAt.cons _ rfl
    obtain h | ⟨⟨right, st₁, rest, hrest⟩, hright, h⟩ := bind_eq_error.1 h
    . exact stopsAt_of_takeAnd h
    . have hlt : rest.length < answers'.length + 1 := Nat.lt_succ_of_lt hrest
      obtain h | ⟨_, _, h⟩ := bind_eq_error.1 h
      . exact (formed_of_takes_and ⟨hrest, hright⟩).stopsAt (stopsAt_of_takeExprTail h)
      . cases h
  . cases h
termination_by (answers.length, 4)

end

/-- The answers of a text that is a condition form it. -/
theorem formedBy_of_parse {source : String} {c : Condition} (h : parse source = .ok c)
    : FormedBy (lexAnswers source) c := by
  obtain ⟨st, htakes⟩ := ofAnswers_eq_ok.1 h
  obtain ⟨front, hfront, hformed, -⟩ := formed_of_takes_expr htakes
  rwa [hfront, List.append_nil]

theorem stopsAt_of_parse {source : String} {e : ParseError} (h : parse source = .error e)
    : StopsAt source.utf8ByteSize (lexAnswers source) e.span := by
  unfold parse ofAnswers at h
  obtain h | ⟨⟨c, st, rest, hrest⟩, hc, h⟩ := bind_eq_error.1 h
  . exact stopsAt_of_takeExpr h
  . apply (formed_of_takes_expr ⟨hrest, hc⟩).stopsAt
    dsimp only at h
    split at h
    . cases h
    . cases h
      exact stopsAt_head (.error e) _
    . next token _ =>
      cases h
      exact stopsAt_head (.ok token) _

end Condition

end ObjectStore
