import ObjectStore.Filter.Parser
import ObjectStore.Proofs.Except
import ObjectStore.Proofs.Filter.Grammar

/-!
This module proves that the parser accepts what the grammar derives, and nothing else, and that the
condition it returns reads like the derivation. What the parser takes is derived, by induction on the
answers that are left. What is derived is taken, by induction on the derivation: the tail of a chain
is proved for any condition in front of it.
-/

namespace ObjectStore

/-- The token without its place, if the answer is one. -/
def LexAnswer.token? : LexAnswer → Option Token
  | .ok token => some token.value
  | .error _ => none

namespace Condition

open Grammar

/-- The answers are tokens, namely these. -/
def Spells (answers : List LexAnswer) (tokens : List Token) : Prop :=
  answers.map LexAnswer.token? = tokens.map some

theorem spells_nil {answers : List LexAnswer} : Spells answers [] ↔ answers = [] := by
  unfold Spells
  simp

theorem spells_cons {answers : List LexAnswer} {token : Token} {tokens : List Token}
    : Spells answers (token :: tokens)
        ↔
      ∃ span rest, answers = .ok ⟨token, span⟩ :: rest ∧ Spells rest tokens := by
  unfold Spells
  constructor
  . intro h
    match answers with
    | .ok ⟨token', span⟩ :: rest =>
      simp only [List.map_cons, LexAnswer.token?, List.cons.injEq, Option.some.injEq] at h
      obtain ⟨rfl, h⟩ := h
      exact ⟨span, rest, rfl, h⟩
  . rintro ⟨span, rest, rfl, h⟩
    simp [LexAnswer.token?, h]

theorem spells_append {answers : List LexAnswer} {tokens tokens' : List Token}
    : Spells answers (tokens ++ tokens')
        ↔
      ∃ front back, answers = front ++ back ∧ Spells front tokens ∧ Spells back tokens' := by
  unfold Spells
  rw [List.map_append, List.map_eq_append_iff]

theorem spells_iff {answers : List LexAnswer} {tokens : List Token}
    : Spells answers tokens
        ↔
      ∃ spanned : List SpannedToken, answers = spanned.map .ok ∧ tokens = spanned.map (·.value) := by
  constructor
  . intro h
    induction tokens generalizing answers with
    | nil => exact ⟨[], spells_nil.mp h, rfl⟩
    | cons token tokens ih =>
      obtain ⟨span, rest, rfl, hrest⟩ := spells_cons.mp h
      obtain ⟨spanned, rfl, rfl⟩ := ih hrest
      exact ⟨⟨token, span⟩ :: spanned, rfl, rfl⟩
  . rintro ⟨spanned, rfl, rfl⟩
    unfold Spells
    rw [List.map_map, List.map_map]
    rfl

/-- The end of the text, or a token other than the given one. -/
def Ends (word : Token) : List LexAnswer → Prop
  | [] => True
  | .ok token :: _ => token.value ≠ word
  | .error _ :: _ => False

variable {p : List LexAnswer → Prop}

/-- A reader leaves the answers from `rest` on. -/
def Takes (answer : Except ParseError (Condition × ReadState × { rest // p rest })) (c : Condition)
    (st : ReadState) (rest : List LexAnswer) : Prop :=
  ∃ h, answer = .ok (c, st, ⟨rest, h⟩)

variable {st st' : ReadState} {answers rest : List LexAnswer} {c left : Condition}

theorem takeToken_eq_ok {token : SpannedToken} {r : Rest answers}
    : takeToken st answers = .ok (token, r) ↔ answers = .ok token :: r.1 := by
  unfold takeToken
  split
  . simp
  . simp
  . simp only [Except.ok.injEq, Prod.mk.injEq, List.cons.injEq, Subtype.ext_iff]

theorem takeOperator_eq_ok {stop : Nat} {op : Spanned Operator} {r : Rest answers}
    : takeOperator st stop answers = .ok (op, r)
        ↔
      answers = .ok ⟨.operator op.value, op.span⟩ :: r.1 := by
  unfold takeOperator
  split
  . simp
  . simp
  . next token rest =>
    obtain ⟨token, span⟩ := token
    obtain ⟨op, span'⟩ := op
    cases token <;> simp [Subtype.ext_iff, and_assoc]

theorem takePlaceholder_eq_ok {placeholder : Spanned Nat} {r : Rest answers}
    : takePlaceholder st answers = .ok (placeholder, st', r)
        ↔
      answers = .ok ⟨.placeholder, placeholder.span⟩ :: r.1
        ∧ placeholder.value = st.placeholders
        ∧ st' = { st with placeholders := st.placeholders + 1 } := by
  obtain ⟨index, span'⟩ := placeholder
  unfold takePlaceholder
  simp only [bind_eq_ok, Prod.exists, takeToken_eq_ok]
  constructor
  . rintro ⟨⟨token, span⟩, rest, hrest, h⟩
    cases token <;> cases h
    exact ⟨hrest, rfl, rfl⟩
  . rintro ⟨hrest, rfl, rfl⟩
    exact ⟨_, _, hrest, rfl⟩

theorem takes_takeComparison {field : Spanned String}
    : Takes (takeComparison st field answers) c st' rest
        ↔
      ∃ op span, answers = .ok ⟨.operator op.value, op.span⟩ :: .ok ⟨.placeholder, span⟩ :: rest
        ∧ c = comparison field op ⟨st.placeholders, span⟩
        ∧ st' = { st with placeholders := st.placeholders + 1 } := by
  unfold takeComparison Takes
  simp only [bind_eq_ok, Prod.exists, takeOperator_eq_ok, takePlaceholder_eq_ok, Subtype.exists]
  constructor
  . rintro ⟨h, op, rest₁, h₁, rfl, ⟨value, span⟩, st₁, rest₂, h₂, ⟨rfl, rfl, rfl⟩, hreturn⟩
    cases hreturn
    exact ⟨op, span, rfl, rfl, rfl⟩
  . rintro ⟨op, span, rfl, rfl, rfl⟩
    exact ⟨by simp only [List.length_cons]; omega, op, _, by simp, rfl, ⟨_, span⟩, _, rest,
      by simp, ⟨rfl, rfl, rfl⟩, rfl⟩

theorem takes_takeTerm_group {span : Span}
    : Takes (takeTerm st (.ok ⟨.leftParen, span⟩ :: answers)) c st' rest
        ↔
      ∃ span', Takes (takeExpr st answers) c st' (.ok ⟨.rightParen, span'⟩ :: rest) := by
  unfold takeTerm Takes
  simp only [bind_eq_ok, Prod.exists, takeToken_eq_ok, Subtype.exists]
  constructor
  . rintro ⟨h, inner, st₁, rest₁, h₁, hinner, ⟨token, span'⟩, rest₂, h₂, rfl, hreturn⟩
    split at hreturn
    . next htoken =>
      cases hreturn
      cases htoken
      exact ⟨span', h₁, hinner⟩
    . cases hreturn
  . rintro ⟨span', h, hinner⟩
    have hlength := h
    rw [List.length_cons] at hlength
    exact ⟨by rw [List.length_cons]; omega, c, st', _, h, hinner, _, rest, by simp, rfl, rfl⟩

theorem takes_bind {q : List LexAnswer → Prop}
    {x : Except ParseError (Condition × ReadState × { rest // p rest })}
    {f : Condition × ReadState × { rest // p rest }
      → Except ParseError (Condition × ReadState × { rest // q rest })}
    : Takes (x >>= f) c st' rest
        ↔
      ∃ left st₁ rest₁ h, x = .ok (left, st₁, ⟨rest₁, h⟩)
        ∧ Takes (f (left, st₁, ⟨rest₁, h⟩)) c st' rest := by
  unfold Takes
  simp only [bind_eq_ok, Prod.exists, Subtype.exists]
  constructor
  . rintro ⟨h, left, st₁, rest₁, h₁, hx, hf⟩
    exact ⟨left, st₁, rest₁, h₁, hx, h, hf⟩
  . rintro ⟨left, st₁, rest₁, h₁, hx, h, hf⟩
    exact ⟨h, left, st₁, rest₁, h₁, hx, hf⟩

-- Most readers end by counting what they took before to what the last reader took.
theorem takes_widen {q : List LexAnswer → Prop} (hq : ∀ rest, p rest → q rest)
    {x : Except ParseError (Condition × ReadState × { rest // p rest })}
    : Takes (x >>= fun r => pure (r.1, r.2.1, (⟨r.2.2.1, hq _ r.2.2.2⟩ : { rest // q rest }))) c st' rest
        ↔
      Takes x c st' rest := by
  rw [takes_bind]
  constructor
  . rintro ⟨c', st₁, rest₁, h₁, hx, _, hreturn⟩
    cases hreturn
    exact ⟨h₁, hx⟩
  . rintro ⟨h, hx⟩
    exact ⟨c, st', rest, h, hx, hq _ h, rfl⟩

theorem takes_takeTerm_comparison {name : String} {span : Span}
    : Takes (takeTerm st (.ok ⟨.identifier name, span⟩ :: answers)) c st' rest
        ↔
      Takes (takeComparison st ⟨name, span⟩ answers) c st' rest := by
  unfold takeTerm
  exact takes_widen fun rest h => by rw [List.length_cons]; omega

theorem takes_takeAnd
    : Takes (takeAnd st answers) c st' rest
        ↔
      ∃ left st₁ rest₁, Takes (takeTerm st answers) left st₁ rest₁
        ∧ Takes (takeAndTail st₁ left rest₁) c st' rest := by
  unfold takeAnd
  rw [takes_bind]
  constructor
  . rintro ⟨left, st₁, rest₁, h, hleft, htail⟩
    exact ⟨left, st₁, rest₁, ⟨h, hleft⟩, (takes_widen _).mp htail⟩
  . rintro ⟨left, st₁, rest₁, ⟨h, hleft⟩, htail⟩
    exact ⟨left, st₁, rest₁, h, hleft, (takes_widen fun rest h' => Nat.lt_of_le_of_lt h' h).mpr htail⟩

theorem takes_takeAndTail_and {span : Span}
    : Takes (takeAndTail st left (.ok ⟨.and, span⟩ :: answers)) c st' rest
        ↔
      ∃ right st₁ rest₁, Takes (takeTerm st answers) right st₁ rest₁
        ∧ Takes (takeAndTail st₁ (left.andAlso right) rest₁) c st' rest := by
  rw [takeAndTail.eq_def]
  simp only
  rw [takes_bind]
  constructor
  . rintro ⟨right, st₁, rest₁, h, hright, htail⟩
    exact ⟨right, st₁, rest₁, ⟨h, hright⟩, (takes_widen _).mp htail⟩
  . rintro ⟨right, st₁, rest₁, ⟨h, hright⟩, htail⟩
    exact ⟨right, st₁, rest₁, h, hright, (takes_widen fun rest h' =>
      Nat.le_succ_of_le (Nat.le_trans h' (Nat.le_of_lt h))).mpr htail⟩

theorem takes_takeAndTail_of_ends (h : Ends .and answers)
    : Takes (takeAndTail st left answers) left st answers := by
  rw [takeAndTail.eq_def]
  split
  . cases h
  . exact absurd rfl h
  . exact ⟨Nat.le_refl _, rfl⟩

theorem takes_takeExpr
    : Takes (takeExpr st answers) c st' rest
        ↔
      ∃ left st₁ rest₁, Takes (takeAnd st answers) left st₁ rest₁
        ∧ Takes (takeExprTail st₁ left rest₁) c st' rest := by
  unfold takeExpr
  rw [takes_bind]
  constructor
  . rintro ⟨left, st₁, rest₁, h, hleft, htail⟩
    exact ⟨left, st₁, rest₁, ⟨h, hleft⟩, (takes_widen _).mp htail⟩
  . rintro ⟨left, st₁, rest₁, ⟨h, hleft⟩, htail⟩
    exact ⟨left, st₁, rest₁, h, hleft, (takes_widen fun rest h' => Nat.lt_of_le_of_lt h' h).mpr htail⟩

theorem takes_takeExprTail_or {span : Span}
    : Takes (takeExprTail st left (.ok ⟨.or, span⟩ :: answers)) c st' rest
        ↔
      ∃ right st₁ rest₁, Takes (takeAnd st answers) right st₁ rest₁
        ∧ Takes (takeExprTail st₁ (left.orElse right) rest₁) c st' rest := by
  rw [takeExprTail.eq_def]
  simp only
  rw [takes_bind]
  constructor
  . rintro ⟨right, st₁, rest₁, h, hright, htail⟩
    exact ⟨right, st₁, rest₁, ⟨h, hright⟩, (takes_widen _).mp htail⟩
  . rintro ⟨right, st₁, rest₁, ⟨h, hright⟩, htail⟩
    exact ⟨right, st₁, rest₁, h, hright, (takes_widen fun rest h' =>
      Nat.le_succ_of_le (Nat.le_trans h' (Nat.le_of_lt h))).mpr htail⟩

theorem takes_takeExprTail_of_ends (h : Ends .or answers)
    : Takes (takeExprTail st left answers) left st answers := by
  rw [takeExprTail.eq_def]
  split
  . cases h
  . exact absurd rfl h
  . exact ⟨Nat.le_refl _, rfl⟩

/-! What the parser takes is derived. -/

theorem opening_of_takes_takeTerm (h : Takes (takeTerm st answers) c st' rest)
    : (∃ span answers', answers = .ok ⟨.leftParen, span⟩ :: answers')
        ∨
      ∃ name span answers', answers = .ok ⟨.identifier name, span⟩ :: answers' := by
  obtain ⟨_, h⟩ := h
  unfold takeTerm at h
  split at h
  . cases h
  . cases h
  . next token span answers' _ =>
    cases token with
    | leftParen => exact .inl ⟨span, answers', rfl⟩
    | identifier name => exact .inr ⟨name, span, answers', rfl⟩
    | _ => cases h

theorem connective_of_takes_takeAndTail (h : Takes (takeAndTail st left answers) c st' rest)
    : (∃ span answers', answers = .ok ⟨.and, span⟩ :: answers') ∨ c = left ∧ st' = st ∧ rest = answers := by
  obtain ⟨_, h⟩ := h
  rw [takeAndTail.eq_def] at h
  split at h
  . cases h
  . next span answers' _ => exact .inl ⟨span, answers', rfl⟩
  . cases h
    exact .inr ⟨rfl, rfl, rfl⟩

theorem connective_of_takes_takeExprTail (h : Takes (takeExprTail st left answers) c st' rest)
    : (∃ span answers', answers = .ok ⟨.or, span⟩ :: answers') ∨ c = left ∧ st' = st ∧ rest = answers := by
  obtain ⟨_, h⟩ := h
  rw [takeExprTail.eq_def] at h
  split at h
  . cases h
  . next span answers' _ => exact .inl ⟨span, answers', rfl⟩
  . cases h
    exact .inr ⟨rfl, rfl, rfl⟩

theorem Takes.length_lt {answer : Except ParseError (Condition × ReadState × Rest answers)}
    (h : Takes answer c st' rest) : rest.length < answers.length :=
  h.1

theorem spells_singleton {token : Token} {span : Span} : Spells [.ok ⟨token, span⟩] [token] := rfl

theorem Spells.append {front back : List LexAnswer} {tokens tokens' : List Token}
    (h : Spells front tokens) (h' : Spells back tokens') : Spells (front ++ back) (tokens ++ tokens') :=
  spells_append.mpr ⟨front, back, rfl, h, h'⟩

theorem Spells.cons {token : Token} {span : Span} {tokens : List Token} (h : Spells answers tokens)
    : Spells (.ok ⟨token, span⟩ :: answers) (token :: tokens) :=
  spells_cons.mpr ⟨span, answers, rfl, h⟩

mutual

theorem term_of_takes {st st' : ReadState} {answers rest : List LexAnswer}
    {c : Condition} (h : Takes (takeTerm st answers) c st' rest)
    : ∃ (t : Term) (front : _), answers = front ++ rest ∧ Spells front t.tokens := by
  obtain ⟨span, answers', rfl⟩ | ⟨name, span, answers', rfl⟩ := opening_of_takes_takeTerm h
  . obtain ⟨span', hinner⟩ := takes_takeTerm_group.mp h
    obtain ⟨d, front, rfl, hfront⟩ := disjunction_of_takes hinner
    refine ⟨.group d, .ok ⟨.leftParen, span⟩ :: (front ++ [.ok ⟨.rightParen, span'⟩]), by simp, ?_⟩
    unfold Term.tokens
    exact (hfront.append spells_singleton).cons
  . obtain ⟨op, span', rfl, -, -⟩ := takes_takeComparison.mp (takes_takeTerm_comparison.mp h)
    exact ⟨.comparison name op.value, [_, _, _], rfl, rfl⟩
termination_by (answers.length, 0)

theorem conjunction_of_takes {st st' : ReadState} {answers rest : List LexAnswer}
    {c : Condition} (h : Takes (takeAnd st answers) c st' rest)
    : ∃ (d : Conjunction) (front : _), answers = front ++ rest ∧ Spells front d.tokens := by
  obtain ⟨left, st₁, rest₁, hleft, htail⟩ := takes_takeAnd.mp h
  have hlt := hleft.length_lt
  obtain ⟨t, front, rfl, hfront⟩ := term_of_takes hleft
  obtain hsame | ⟨d, span, front', rfl, hfront'⟩ := conjunction_of_takes_tail htail
  . exact ⟨.last t, front, by rw [hsame], hfront⟩
  . exact ⟨.and t d, front ++ .ok ⟨.and, span⟩ :: front', by simp, hfront.append hfront'.cons⟩
termination_by (answers.length, 1)

theorem conjunction_of_takes_tail {st st' : ReadState} {answers rest : List LexAnswer}
    {c left : Condition} (h : Takes (takeAndTail st left answers) c st' rest)
    : rest = answers
        ∨
      ∃ (d : Conjunction) (span : _) (front : _),
        answers = .ok ⟨.and, span⟩ :: front ++ rest ∧ Spells front d.tokens := by
  obtain ⟨span, answers', rfl⟩ | ⟨-, -, hsame⟩ := connective_of_takes_takeAndTail h
  . right
    obtain ⟨right, st₁, rest₁, hright, htail⟩ := takes_takeAndTail_and.mp h
    have hlt := hright.length_lt
    obtain ⟨t, front, rfl, hfront⟩ := term_of_takes hright
    obtain hsame | ⟨d, span', front', rfl, hfront'⟩ := conjunction_of_takes_tail htail
    . exact ⟨.last t, span, front, by rw [hsame]; rfl, hfront⟩
    . exact ⟨.and t d, span, front ++ .ok ⟨.and, span'⟩ :: front', by simp,
        hfront.append hfront'.cons⟩
  . exact .inl hsame
termination_by (answers.length, 2)

theorem disjunction_of_takes {st st' : ReadState} {answers rest : List LexAnswer}
    {c : Condition} (h : Takes (takeExpr st answers) c st' rest)
    : ∃ (d : Disjunction) (front : _), answers = front ++ rest ∧ Spells front d.tokens := by
  obtain ⟨left, st₁, rest₁, hleft, htail⟩ := takes_takeExpr.mp h
  have hlt := hleft.length_lt
  obtain ⟨d, front, rfl, hfront⟩ := conjunction_of_takes hleft
  obtain hsame | ⟨d', span, front', rfl, hfront'⟩ := disjunction_of_takes_tail htail
  . exact ⟨.last d, front, by rw [hsame], hfront⟩
  . exact ⟨.or d d', front ++ .ok ⟨.or, span⟩ :: front', by simp, hfront.append hfront'.cons⟩
termination_by (answers.length, 3)

theorem disjunction_of_takes_tail {st st' : ReadState} {answers rest : List LexAnswer}
    {c left : Condition} (h : Takes (takeExprTail st left answers) c st' rest)
    : rest = answers
        ∨
      ∃ (d : Disjunction) (span : _) (front : _),
        answers = .ok ⟨.or, span⟩ :: front ++ rest ∧ Spells front d.tokens := by
  obtain ⟨span, answers', rfl⟩ | ⟨-, -, hsame⟩ := connective_of_takes_takeExprTail h
  . right
    obtain ⟨right, st₁, rest₁, hright, htail⟩ := takes_takeExprTail_or.mp h
    have hlt := hright.length_lt
    obtain ⟨d, front, rfl, hfront⟩ := conjunction_of_takes hright
    obtain hsame | ⟨d', span', front', rfl, hfront'⟩ := disjunction_of_takes_tail htail
    . exact ⟨.last d, span, front, by rw [hsame]; rfl, hfront⟩
    . exact ⟨.or d d', span, front ++ .ok ⟨.or, span'⟩ :: front', by simp,
        hfront.append hfront'.cons⟩
  . exact .inl hsame
termination_by (answers.length, 4)

end

/-! What is derived is taken. -/

/-- A reader leaves the answers from `rest` on and returns a condition that has certain comparisons,
numbered from `n` on, and a certain truth value. -/
def Delivers (answer : Except ParseError (Condition × ReadState × { rest // p rest })) (n : Nat)
    (rest : List LexAnswer) (comparisons : List (String × Operator))
    (value : (Nat → Bool) → Bool) : Prop :=
  ∃ c st, Takes answer c st rest ∧ c.Reads n comparisons value
    ∧ st.placeholders = n + comparisons.length

theorem reads_comparison (field : Spanned String) (op : Spanned Operator) (placeholder : Spanned Nat)
    : (comparison field op placeholder).Reads placeholder.value [(field.value, op.value)]
        fun assign => assign placeholder.value := by
  constructor
  . rfl
  . intro assign
    rfl

theorem Reads.of_eq {n n' : Nat} {cs cs' : List (String × Operator)}
    {value value' : (Nat → Bool) → Bool} (h : c.Reads n cs value) (hn : n = n') (hcs : cs = cs')
    (hvalue : ∀ assign, value assign = value' assign) : c.Reads n' cs' value' := by
  have hvalue' : value = value' := funext hvalue
  rw [← hn, ← hcs, ← hvalue']
  exact h

mutual

theorem delivers_takeTerm (t : Term) (st : ReadState) (rest : List LexAnswer) {front : List LexAnswer}
    (h : Spells front t.tokens)
    : Delivers (takeTerm st (front ++ rest)) st.placeholders rest t.comparisons
        fun assign => t.holds assign st.placeholders := by
  cases t with
  | group d =>
    unfold Term.tokens at h
    obtain ⟨span, inside, rfl, hinside⟩ := spells_cons.mp h
    obtain ⟨front, close, rfl, hfront, hclose⟩ := spells_append.mp hinside
    obtain ⟨span', back, rfl, hback⟩ := spells_cons.mp hclose
    rw [spells_nil.mp hback, List.cons_append, List.append_assoc]
    obtain ⟨c, st', hc, hreads, hst'⟩ := delivers_takeExpr d st
      (.ok ⟨.rightParen, span'⟩ :: rest) hfront (by unfold Ends; simp) (by unfold Ends; simp)
    exact ⟨c, st', takes_takeTerm_group.mpr ⟨span', hc⟩, hreads, hst'⟩
  | comparison name op =>
    unfold Term.tokens at h
    obtain ⟨span, front₁, rfl, h₁⟩ := spells_cons.mp h
    obtain ⟨span', front₂, rfl, h₂⟩ := spells_cons.mp h₁
    obtain ⟨span'', front₃, rfl, h₃⟩ := spells_cons.mp h₂
    rw [spells_nil.mp h₃]
    exact ⟨_, _, takes_takeTerm_comparison.mpr
      (takes_takeComparison.mpr ⟨⟨op, span'⟩, span'', rfl, rfl, rfl⟩),
      reads_comparison ⟨name, span⟩ ⟨op, span'⟩ ⟨st.placeholders, span''⟩, rfl⟩

theorem delivers_takeAnd (d : Conjunction) (st : ReadState) (rest : List LexAnswer) {front : List LexAnswer}
    (h : Spells front d.tokens) (hends : Ends .and rest)
    : Delivers (takeAnd st (front ++ rest)) st.placeholders rest d.comparisons
        fun assign => d.holds assign st.placeholders := by
  cases d with
  | last t =>
    obtain ⟨c, st', hc, hreads, hst'⟩ := delivers_takeTerm t st rest h
    exact ⟨c, st', takes_takeAnd.mpr ⟨c, st', rest, hc, takes_takeAndTail_of_ends hends⟩, hreads, hst'⟩
  | and t d =>
    unfold Conjunction.tokens at h
    obtain ⟨front, more, rfl, hfront, hmore⟩ := spells_append.mp h
    obtain ⟨span, back, rfl, hback⟩ := spells_cons.mp hmore
    obtain ⟨left, st₁, hleft, hreads, hst₁⟩ := delivers_takeTerm t st
      (.ok ⟨.and, span⟩ :: back ++ rest) hfront
    obtain ⟨c, st', hc, hreads', hst'⟩ :=
      delivers_takeAndTail d span hreads hst₁ hback hends
    rw [List.append_assoc]
    exact ⟨c, st', takes_takeAnd.mpr ⟨left, st₁, _, hleft, hc⟩, hreads', hst'⟩

theorem delivers_takeAndTail (d : Conjunction) (span : Span) {st : ReadState} {front rest : List LexAnswer}
    {left : Condition} {n : Nat} {cs : List (String × Operator)} {value : (Nat → Bool) → Bool}
    (hleft : left.Reads n cs value) (hst : st.placeholders = n + cs.length)
    (h : Spells front d.tokens) (hends : Ends .and rest)
    : Delivers (takeAndTail st left (.ok ⟨.and, span⟩ :: front ++ rest)) n rest (cs ++ d.comparisons)
        fun assign => value assign && d.holds assign (n + cs.length) := by
  rw [List.cons_append]
  cases d with
  | last t =>
    obtain ⟨right, st₁, hright, hreads, hst₁⟩ := delivers_takeTerm t st rest h
    rw [hst] at hreads hst₁
    refine ⟨left.andAlso right, st₁, takes_takeAndTail_and.mpr
      ⟨right, st₁, rest, hright, takes_takeAndTail_of_ends hends⟩, hleft.andAlso hreads, ?_⟩
    rw [hst₁, List.length_append, Nat.add_assoc]
    rfl
  | and t d =>
    unfold Conjunction.tokens at h
    obtain ⟨front, more, rfl, hfront, hmore⟩ := spells_append.mp h
    obtain ⟨span', back, rfl, hback⟩ := spells_cons.mp hmore
    obtain ⟨right, st₁, hright, hreads, hst₁⟩ := delivers_takeTerm t st
      (.ok ⟨.and, span'⟩ :: back ++ rest) hfront
    rw [hst] at hreads hst₁
    rw [Nat.add_assoc, ← List.length_append] at hst₁
    obtain ⟨c, st', hc, hreads', hst'⟩ :=
      delivers_takeAndTail d span' (hleft.andAlso hreads) hst₁ hback hends
    rw [List.append_assoc front]
    refine ⟨c, st', takes_takeAndTail_and.mpr ⟨right, st₁, _, hright, hc⟩, ?_, ?_⟩
    . apply hreads'.of_eq rfl
      . apply List.append_assoc
      . intro assign
        rw [Bool.and_assoc, List.length_append, ← Nat.add_assoc]
        rfl
    . rw [hst', List.append_assoc]
      rfl

theorem delivers_takeExpr (d : Disjunction) (st : ReadState) (rest : List LexAnswer) {front : List LexAnswer}
    (h : Spells front d.tokens) (hends : Ends .and rest) (hends' : Ends .or rest)
    : Delivers (takeExpr st (front ++ rest)) st.placeholders rest d.comparisons
        fun assign => d.holds assign st.placeholders := by
  cases d with
  | last d =>
    obtain ⟨c, st', hc, hreads, hst'⟩ := delivers_takeAnd d st rest h hends
    exact ⟨c, st', takes_takeExpr.mpr ⟨c, st', rest, hc, takes_takeExprTail_of_ends hends'⟩, hreads,
      hst'⟩
  | or d d' =>
    unfold Disjunction.tokens at h
    obtain ⟨front, more, rfl, hfront, hmore⟩ := spells_append.mp h
    obtain ⟨span, back, rfl, hback⟩ := spells_cons.mp hmore
    obtain ⟨left, st₁, hleft, hreads, hst₁⟩ := delivers_takeAnd d st
      (.ok ⟨.or, span⟩ :: back ++ rest) hfront (by unfold Ends; simp)
    obtain ⟨c, st', hc, hreads', hst'⟩ :=
      delivers_takeExprTail d' span hreads hst₁ hback hends hends'
    rw [List.append_assoc]
    exact ⟨c, st', takes_takeExpr.mpr ⟨left, st₁, _, hleft, hc⟩, hreads', hst'⟩

theorem delivers_takeExprTail (d : Disjunction) (span : Span) {st : ReadState} {front rest : List LexAnswer}
    {left : Condition} {n : Nat} {cs : List (String × Operator)} {value : (Nat → Bool) → Bool}
    (hleft : left.Reads n cs value) (hst : st.placeholders = n + cs.length)
    (h : Spells front d.tokens) (hends : Ends .and rest) (hends' : Ends .or rest)
    : Delivers (takeExprTail st left (.ok ⟨.or, span⟩ :: front ++ rest)) n rest (cs ++ d.comparisons)
        fun assign => value assign || d.holds assign (n + cs.length) := by
  rw [List.cons_append]
  cases d with
  | last d =>
    obtain ⟨right, st₁, hright, hreads, hst₁⟩ := delivers_takeAnd d st rest h hends
    rw [hst] at hreads hst₁
    refine ⟨left.orElse right, st₁, takes_takeExprTail_or.mpr
      ⟨right, st₁, rest, hright, takes_takeExprTail_of_ends hends'⟩, hleft.orElse hreads, ?_⟩
    rw [hst₁, List.length_append, Nat.add_assoc]
    rfl
  | or d d' =>
    unfold Disjunction.tokens at h
    obtain ⟨front, more, rfl, hfront, hmore⟩ := spells_append.mp h
    obtain ⟨span', back, rfl, hback⟩ := spells_cons.mp hmore
    obtain ⟨right, st₁, hright, hreads, hst₁⟩ := delivers_takeAnd d st
      (.ok ⟨.or, span'⟩ :: back ++ rest) hfront (by unfold Ends; simp)
    rw [hst] at hreads hst₁
    rw [Nat.add_assoc, ← List.length_append] at hst₁
    obtain ⟨c, st', hc, hreads', hst'⟩ :=
      delivers_takeExprTail d' span' (hleft.orElse hreads) hst₁ hback hends hends'
    rw [List.append_assoc front]
    refine ⟨c, st', takes_takeExprTail_or.mpr ⟨right, st₁, _, hright, hc⟩, ?_, ?_⟩
    . apply hreads'.of_eq rfl
      . apply List.append_assoc
      . intro assign
        rw [Bool.or_assoc, List.length_append, ← Nat.add_assoc]
        rfl
    . rw [hst', List.append_assoc]
      rfl

end

theorem ofAnswers_eq_ok {sourceLength : Nat}
    : ofAnswers sourceLength answers = .ok c
        ↔
      ∃ st, Takes (takeExpr ⟨sourceLength, 0⟩ answers) c st [] := by
  unfold ofAnswers Takes
  simp only [bind_eq_ok, Prod.exists, Subtype.exists]
  constructor
  . rintro ⟨c', st, rest, h, htake, hreturn⟩
    split at hreturn
    . cases hreturn
      exact ⟨st, h, htake⟩
    . cases hreturn
    . cases hreturn
  . rintro ⟨st, h, htake⟩
    exact ⟨c, st, [], h, htake, rfl⟩

theorem tokenize_eq_ok {source : String} {tokens : List SpannedToken}
    : tokenize source = .ok tokens ↔ lexAnswers source = tokens.map .ok := by
  unfold tokenize
  rw [mapM_eq_ok, ← List.forall₂_eq_eq_eq, List.forall₂_map_right_iff]
  rfl

theorem derivation_of_parse {source : String} (h : parse source = .ok c)
    : ∃ tokens, tokenize source = .ok tokens
        ∧ ∃ d : Disjunction, d.tokens = tokens.map (·.value) := by
  obtain ⟨st, htakes⟩ := ofAnswers_eq_ok.mp h
  obtain ⟨d, front, hfront, hspells⟩ := disjunction_of_takes htakes
  rw [List.append_nil] at hfront
  obtain ⟨tokens, htokens, hd⟩ := spells_iff.mp hspells
  exact ⟨tokens, tokenize_eq_ok.mpr (hfront.trans htokens), d, hd⟩

theorem parse_of_derivation {source : String} {tokens : List SpannedToken} {d : Disjunction}
    (h : tokenize source = .ok tokens) (hd : d.tokens = tokens.map (·.value))
    : ∃ c, parse source = .ok c ∧ c.Reads 0 d.comparisons fun assign => d.holds assign 0 := by
  have hspells : Spells (lexAnswers source) d.tokens :=
    spells_iff.mpr ⟨tokens, tokenize_eq_ok.mp h, hd⟩
  obtain ⟨c, st, hc, hreads, -⟩ := delivers_takeExpr d ⟨source.utf8ByteSize, 0⟩ [] hspells
    trivial trivial
  rw [List.append_nil] at hc
  exact ⟨c, ofAnswers_eq_ok.mpr ⟨st, hc⟩, hreads⟩

/-- A text is a filter exactly when it splits into tokens that the grammar derives, and the filter
reads like each of its derivations. -/
theorem parse_derives (source : String)
    : ((∃ c, parse source = .ok c)
        ↔
      ∃ tokens, tokenize source = .ok tokens
        ∧ ∃ d : Disjunction, d.tokens = tokens.map (·.value))
        ∧
      ∀ c tokens (d : Disjunction),
        parse source = .ok c → tokenize source = .ok tokens → d.tokens = tokens.map (·.value)
          →
        c.comparisons = d.comparisons.zipIdx
          ∧ c.placeholderCount = d.comparisons.length
          ∧ ∀ assign, c.holds assign = d.holds assign 0 := by
  constructor
  . constructor
    . rintro ⟨c, hc⟩
      exact derivation_of_parse hc
    . rintro ⟨tokens, htokens, d, hd⟩
      obtain ⟨c, hc, -⟩ := parse_of_derivation htokens hd
      exact ⟨c, hc⟩
  . intro c tokens d hc htokens hd
    obtain ⟨c', hc', hreads⟩ := parse_of_derivation htokens hd
    have hsame : c' = c := Except.ok.inj (hc'.symm.trans hc)
    rw [hsame] at hreads
    refine ⟨hreads.comparisons, ?_, hreads.holds⟩
    rw [placeholderCount_eq, hreads.comparisons, List.length_zipIdx]

theorem parse_derives_of_precedence
    : ∃ c, parse "a = ? or b in ? and (c > ? or d < ?)" = .ok c
        ∧ c.comparisons = [(("a", .eq), 0), (("b", .isIn), 1), (("c", .gt), 2), (("d", .lt), 3)]
        ∧ c.placeholderCount = 4
        ∧ ∀ assign, c.holds assign = (assign 0 || assign 1 && (assign 2 || assign 3)) := by
  obtain ⟨d, hspells, hcomparisons, hholds⟩
      : ∃ d : Disjunction,
        Spells (lexAnswers "a = ? or b in ? and (c > ? or d < ?)") d.tokens
          ∧ d.comparisons = [("a", .eq), ("b", .isIn), ("c", .gt), ("d", .lt)]
          ∧ ∀ assign, d.holds assign 0 = (assign 0 || assign 1 && (assign 2 || assign 3)) := by
    refine ⟨.or (.last (.comparison "a" .eq)) (.last (.and (.comparison "b" .isIn)
      (.last (.group (.or (.last (.comparison "c" .gt)) (.last (.last (.comparison "d" .lt)))))))),
      ?_, rfl, ?_⟩
    . unfold Spells
      decide +kernel
    . intro assign
      rfl
  obtain ⟨tokens, htokens, hd⟩ := spells_iff.mp hspells
  obtain ⟨c, hc⟩ := (parse_derives _).1.mpr ⟨tokens, tokenize_eq_ok.mpr htokens, d, hd⟩
  obtain ⟨hcomparisons', hcount, hholds'⟩ :=
    (parse_derives _).2 c tokens d hc (tokenize_eq_ok.mpr htokens) hd
  refine ⟨c, hc, ?_, ?_, ?_⟩
  . rw [hcomparisons', hcomparisons]
    rfl
  . rw [hcount, hcomparisons]
    rfl
  . intro assign
    rw [hholds', hholds]

end Condition

end ObjectStore
