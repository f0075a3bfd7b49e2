import ObjectStore.Proofs.Filter.Placement

/-!
This module proves when it goes unnoticed that tokens are looked at before they are asked for. What a
lexer answers depends only on the answers that are still to come. Looking at a token leaves them as they
are, but a fault is gone once it was looked at. Since no answer comes twice, that is noticed as soon as
a token is asked for afterwards.
-/

namespace ObjectStore

namespace Lexer

inductive Request where
  | peek
  | next
deriving DecidableEq, Repr

abbrev Answer := Except ParseError (Option SpannedToken)

def ask (l : Lexer) : Request → Answer × Lexer
  | .peek => l.peek
  | .next => l.next

/-- Requests to a lexer one after the other, each with its answer. -/
def run (l : Lexer) : List Request → List (Request × Answer)
  | [] => []
  | request :: requests => (request, (l.ask request).1) :: run (l.ask request).2 requests

/-- It makes no difference to the answers whether the lexer is asked to look ahead, and each look ahead
shows what the lexer answers when it is next asked for a token. -/
structure Transparent (l : Lexer) (requests : List Request) : Prop where
  delivers : (l.run requests).filter (·.1 = .next) = l.run (requests.filter (· = .next))
  foretells : ∀ before foretold between answer after,
    l.run requests = before ++ (.peek, foretold) :: (between ++ (.next, answer) :: after)
      → (∀ x ∈ between, x.1 = .peek) → foretold = answer

/-- A fault is looked at, and later on a token is asked for. -/
def Overlooks (l : Lexer) (requests : List Request) : Prop :=
  ∃ before e after, l.run requests = before ++ (.peek, .error e) :: after ∧ .next ∈ after.map Prod.fst

/-- The answers that are still to come. -/
def ahead (l : Lexer) : List LexAnswer :=
  match l.peeked with
  | some (some token) => .ok token :: l.scanner.answers
  | _ => l.scanner.answers

/-- The end of the text is remembered only where it is reached. -/
def AtEnd (l : Lexer) : Prop :=
  l.peeked = some none → l.scanner.answers = []

/-- What a request leaves of the answers to come. -/
def leaves : Request → List LexAnswer → List LexAnswer
  | .next, answers => answers.tail
  | .peek, .error _ :: answers => answers
  | .peek, answers => answers

/-- The answers to requests, from the answers that are to come. -/
def replies : List LexAnswer → List Request → List (Request × Answer)
  | _, [] => []
  | answers, request :: requests =>
    (request, ofAnswer answers.head?) :: replies (leaves request answers) requests

end Lexer

theorem Scanner.answers_of_end {s s' : Scanner} (h : s.next = (none, s')) : s'.answers = [] := by
  have hpiece : s.nextPiece = (none, s') := by
    unfold next at h
    split at h
    . split at h
      . cases h
      . split at h
        . split at h <;> cases h
        . cases h
        . cases h
    . exact h
  rw [answers_eq_joinWords, pieces_of_end hpiece, joinWords]

namespace Lexer

variable {l : Lexer} {answers : List LexAnswer} {requests : List Request}

theorem ask_next (h : l.AtEnd)
    : (l.ask .next).1 = ofAnswer l.ahead.head? ∧ (l.ask .next).2.ahead = l.ahead.tail
        ∧ (l.ask .next).2.AtEnd := by
  obtain ⟨s, peeked⟩ := l
  match peeked with
  | some (some token) => exact ⟨rfl, rfl, nofun⟩
  | some none =>
    have hend : s.answers = [] := h rfl
    refine ⟨?_, ?_, nofun⟩
    . change .ok none = ofAnswer s.answers.head?
      rw [hend]
      rfl
    . change s.answers = s.answers.tail
      rw [hend, List.tail_nil]
  | none =>
    unfold ask next ahead AtEnd
    match hnext : s.next with
    | (none, s') =>
      rw [Scanner.answers_of_none hnext]
      exact ⟨rfl, Scanner.answers_of_end hnext, nofun⟩
    | (some answer, s') =>
      rw [Scanner.answers_of_some hnext]
      exact ⟨rfl, rfl, nofun⟩

theorem ask_peek (h : l.AtEnd)
    : (l.ask .peek).1 = ofAnswer l.ahead.head? ∧ (l.ask .peek).2.ahead = leaves .peek l.ahead
        ∧ (l.ask .peek).2.AtEnd := by
  obtain ⟨s, peeked⟩ := l
  match peeked with
  | some (some token) => exact ⟨rfl, rfl, nofun⟩
  | some none =>
    have hend : s.answers = [] := h rfl
    refine ⟨?_, ?_, h⟩
    . change .ok none = ofAnswer s.answers.head?
      rw [hend]
      rfl
    . change s.answers = leaves .peek s.answers
      rw [hend]
      rfl
  | none =>
    unfold ask peek ahead AtEnd
    match hnext : s.next with
    | (none, s') =>
      have hend := Scanner.answers_of_end hnext
      rw [Scanner.answers_of_none hnext]
      exact ⟨rfl, hend, fun _ => hend⟩
    | (some (.ok token), s') =>
      rw [Scanner.answers_of_some hnext]
      exact ⟨rfl, rfl, nofun⟩
    | (some (.error e), s') =>
      rw [Scanner.answers_of_some hnext]
      exact ⟨rfl, rfl, nofun⟩

theorem ask_spec (h : l.AtEnd) (request : Request)
    : (l.ask request).1 = ofAnswer l.ahead.head? ∧ (l.ask request).2.ahead = leaves request l.ahead
        ∧ (l.ask request).2.AtEnd := by
  cases request with
  | peek => exact ask_peek h
  | next => exact ask_next h

/-- What a lexer answers depends on the answers to come only. -/
theorem run_eq_replies (h : l.AtEnd) : l.run requests = replies l.ahead requests := by
  induction requests generalizing l with
  | nil => rfl
  | cons request requests ih =>
    obtain ⟨hanswer, hahead, hatEnd⟩ := ask_spec h request
    rw [run, replies, ih hatEnd, hanswer, hahead]

theorem run_ofSource (source : String)
    : (ofSource source).run requests = replies (lexAnswers source) requests :=
  run_eq_replies nofun

/-! Runs on the answers to come. -/

theorem leaves_suffix (request : Request) (answers : List LexAnswer)
    : leaves request answers <:+ answers := by
  unfold leaves
  split
  . exact List.tail_suffix _
  . exact List.suffix_cons _ _
  . exact List.suffix_refl _

theorem leaves_peek (h : ∀ e, answers.head? ≠ some (.error e)) : leaves .peek answers = answers := by
  unfold leaves
  split
  . next hpeek => cases hpeek
  . exact absurd rfl (h _)
  . rfl

theorem ofAnswer_eq_error {answer : Option LexAnswer} {e : ParseError}
    : ofAnswer answer = .error e ↔ answer = some (.error e) := by
  unfold ofAnswer
  split <;> simp

theorem map_fst_replies (answers : List LexAnswer) (requests : List Request)
    : (replies answers requests).map Prod.fst = requests := by
  induction requests generalizing answers with
  | nil => rfl
  | cons request requests ih => rw [replies, List.map_cons, ih]

/-- At a request, what is still to come is a last part of the answers. -/
theorem replies_eq_append {before after : List (Request × Answer)} {request : Request} {answer : Answer}
    (h : replies answers requests = before ++ (request, answer) :: after)
    : ∃ answers' requests', answers' <:+ answers ∧ answer = ofAnswer answers'.head?
        ∧ after = replies (leaves request answers') requests' := by
  induction before generalizing answers requests with
  | nil =>
    cases requests with
    | nil => cases h
    | cons first requests =>
      cases h
      exact ⟨answers, requests, List.suffix_refl _, rfl, rfl⟩
  | cons x before ih =>
    cases requests with
    | nil => cases h
    | cons first requests =>
      rw [replies, List.cons_append, List.cons.injEq] at h
      obtain ⟨answers', requests', hsuffix, hanswer, hafter⟩ := ih h.2
      exact ⟨answers', requests', hsuffix.trans (leaves_suffix _ _), hanswer, hafter⟩

theorem mem_of_mem_replies {request : Request} {e : ParseError}
    (h : (request, .error e) ∈ replies answers requests) : .error e ∈ answers := by
  obtain ⟨before, after, hsplit⟩ := List.append_of_mem h
  obtain ⟨answers', requests', hsuffix, hanswer, -⟩ := replies_eq_append hsplit
  exact hsuffix.mem (List.mem_of_mem_head? (ofAnswer_eq_error.1 hanswer.symm))

/-- The answers come in their order when tokens are asked for. -/
theorem replies_next (front answers : List LexAnswer) (requests : List Request)
    : replies (front ++ answers) (List.replicate front.length .next ++ requests)
        =
      front.map (fun answer => (.next, ofAnswer (some answer))) ++ replies answers requests := by
  induction front with
  | nil => rfl
  | cons answer front ih =>
    rw [List.length_cons, List.replicate_succ, List.cons_append, List.cons_append, replies, leaves,
      List.tail_cons, ih]
    rfl

theorem answer_behind_peeks {between after : List (Request × Answer)} {answer : Answer}
    (h : replies answers requests = between ++ (.next, answer) :: after)
    (hbetween : ∀ x ∈ between, x.1 = .peek) (hsound : ∀ e, answers.head? ≠ some (.error e))
    : answer = ofAnswer answers.head? := by
  induction between generalizing requests with
  | nil =>
    cases requests with
    | nil => cases h
    | cons request requests =>
      cases h
      rfl
  | cons x between ih =>
    rw [List.forall_mem_cons] at hbetween
    cases requests with
    | nil => cases h
    | cons request requests =>
      rw [replies, List.cons_append, List.cons.injEq] at h
      obtain ⟨rfl, h⟩ := h
      have hpeek : request = .peek := hbetween.1
      rw [hpeek, leaves_peek hsound] at h
      exact ih h hbetween.2

theorem filter_replies
    (h : ∀ before e after, replies answers requests = before ++ (.peek, .error e) :: after
      → .next ∉ after.map Prod.fst)
    : (replies answers requests).filter (·.1 = .next)
        =
      replies answers (requests.filter (· = .next)) := by
  induction requests generalizing answers with
  | nil => rfl
  | cons request requests ih =>
    have hrest : ∀ before e after,
        replies (leaves request answers) requests = before ++ (.peek, .error e) :: after
          → .next ∉ after.map Prod.fst := by
      intro before e after hsplit
      exact h ((request, ofAnswer answers.head?) :: before) e after (by rw [replies, hsplit]; rfl)
    rw [replies]
    cases request with
    | next => rw [List.filter_cons_of_pos rfl, List.filter_cons_of_pos rfl, ih hrest, replies]
    | peek =>
      rw [List.filter_cons_of_neg (by simp), List.filter_cons_of_neg (by simp), ih hrest]
      by_cases hsound : ∀ e, answers.head? ≠ some (.error e)
      . rw [leaves_peek hsound]
      . -- Behind a fault that was looked at no token is asked for.
        rw [not_forall] at hsound
        obtain ⟨e, he⟩ := hsound
        have hnext := h [] e (replies (leaves .peek answers) requests)
          (by rw [replies, not_not.1 he]; rfl)
        rw [map_fst_replies] at hnext
        have hnone : requests.filter (· = .next) = [] := by
          rw [List.filter_eq_nil_iff]
          intro request hrequest heq
          rw [of_decide_eq_true heq] at hrequest
          exact hnext hrequest
        rw [hnone, replies, replies]

/-! What is noticed. -/

section

variable {source : String}

theorem transparent_of_not_overlooks (h : ¬(ofSource source).Overlooks requests)
    : (ofSource source).Transparent requests := by
  unfold Overlooks at h
  rw [run_ofSource] at h
  constructor
  . rw [run_ofSource, run_ofSource]
    apply filter_replies
    intro before e after hsplit hnext
    exact h ⟨before, e, after, hsplit, hnext⟩
  . intro before foretold between answer after hsplit hbetween
    rw [run_ofSource] at hsplit
    obtain ⟨answers, requests', -, hforetold, hafter⟩ := replies_eq_append hsplit
    have hsound : ∀ e, answers.head? ≠ some (.error e) := by
      intro e he
      rw [hforetold, ofAnswer_eq_error.2 he] at hsplit
      exact h ⟨before, e, _, hsplit, by simp⟩
    rw [leaves_peek hsound] at hafter
    rw [hforetold, answer_behind_peeks hafter.symm hbetween hsound]

theorem not_transparent_of_overlooks (h : (ofSource source).Overlooks requests)
    : ¬(ofSource source).Transparent requests := by
  intro htransparent
  obtain ⟨before, e, after, hsplit, hnext⟩ := h
  -- The next request for a token would have to be answered by the fault once more.
  obtain ⟨front, back, hrequests, hfront⟩ := List.eq_append_cons_of_mem hnext
  obtain ⟨between, rest, rfl, hbetween, hrest⟩ := List.map_eq_append_iff.1 hrequests
  obtain ⟨⟨request, answer⟩, after', rfl, rfl, -⟩ := List.map_eq_cons_iff.1 hrest
  have hpeeks : ∀ x ∈ between, x.1 = .peek := by
    intro x hx
    cases hrequest : x.1 with
    | peek => rfl
    | next =>
      rw [← hbetween] at hfront
      exact absurd (hrequest ▸ List.mem_map_of_mem hx) hfront
  have hsame : .error e = answer := htransparent.foretells before _ between answer after' hsplit hpeeks
  rw [run_ofSource] at hsplit
  obtain ⟨answers, requests', hsuffix, hfault, hafter⟩ := replies_eq_append hsplit
  have hnodup : answers.Nodup := (stationed_lexAnswers source).nodup.sublist hsuffix.sublist
  obtain ⟨rest, rfl⟩ : ∃ rest, answers = .error e :: rest :=
    List.head?_eq_some_iff.1 (ofAnswer_eq_error.1 hfault.symm)
  have hagain : (.next, .error e) ∈ replies rest requests' := by
    rw [hsame]
    exact hafter ▸ List.mem_append_right between List.mem_cons_self
  exact (List.nodup_cons.1 hnodup).1 (mem_of_mem_replies hagain)

theorem overlooks_of_mem {e : ParseError} (h : .error e ∈ lexAnswers source)
    : ∃ requests, (ofSource source).Overlooks requests := by
  obtain ⟨front, back, hanswers⟩ := List.append_of_mem h
  refine ⟨List.replicate front.length .next ++ [.peek, .next],
    front.map (fun answer => (.next, ofAnswer (some answer))), e, replies back [.next], ?_, ?_⟩
  . rw [run_ofSource, hanswers, replies_next]
    rfl
  . rw [map_fst_replies]
    exact List.mem_singleton_self _

end

/-- Looking ahead goes unnoticed if and only if no fault is looked at before a token is asked for. So it
always goes unnoticed in a text without faults, and in no other one. -/
theorem transparent_iff (source : String)
    : (∀ requests, (ofSource source).Transparent requests ↔ ¬(ofSource source).Overlooks requests)
        ∧
      ((∀ requests, (ofSource source).Transparent requests) ↔ ∃ tokens, tokenize source = .ok tokens) := by
  have hiff : ∀ requests,
      (ofSource source).Transparent requests ↔ ¬(ofSource source).Overlooks requests := by
    intro requests
    constructor
    . intro htransparent hoverlooks
      exact not_transparent_of_overlooks hoverlooks htransparent
    . exact transparent_of_not_overlooks
  refine ⟨hiff, ?_⟩
  unfold tokenize
  rw [exists_mapM_iff]
  constructor
  . intro h answer hanswer
    cases answer with
    | ok token => exact ⟨token, rfl⟩
    | error e =>
      obtain ⟨requests, hoverlooks⟩ := overlooks_of_mem hanswer
      exact absurd hoverlooks ((hiff requests).1 (h requests))
  . intro h requests
    rw [hiff]
    rintro ⟨before, e, after, hsplit, -⟩
    rw [run_ofSource] at hsplit
    have hfault : .error e ∈ lexAnswers source :=
      mem_of_mem_replies (hsplit ▸ List.mem_append_right before List.mem_cons_self)
    obtain ⟨token, htoken⟩ := h _ hfault
    cases htoken

/-- The look ahead shows the fault, and the request for a token is answered by the name behind it. -/
theorem not_transparent_of_fault
    : (ofSource "& a").run [.peek, .next]
          = [(.peek, .error ⟨.unexpectedText "&", ⟨0, 1⟩⟩),
            (.next, .ok (some ⟨.identifier "a", ⟨2, 3⟩⟩))]
        ∧ ¬(ofSource "& a").Transparent [.peek, .next] := by
  have hrun : (ofSource "& a").run [.peek, .next]
      = [(.peek, .error ⟨.unexpectedText "&", ⟨0, 1⟩⟩),
        (.next, .ok (some ⟨.identifier "a", ⟨2, 3⟩⟩))] := by
    decide +kernel
  refine ⟨hrun, ?_⟩
  intro htransparent
  have hsame := htransparent.foretells [] _ [] _ [] hrun (by simp)
  cases hsame

end Lexer

end ObjectStore
