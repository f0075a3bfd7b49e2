import ObjectStore.Filter.Error

/-!
This module splits the text of a filter into tokens. `lexeme` takes one piece of the text, a `Scanner`
delivers the tokens one by one and puts the words of two-word operators together, and a `Lexer` can
also look one token ahead.
-/

namespace ObjectStore

def isFilterBlank (c : Char) : Bool :=
  c == ' ' || c == '\t' || c == '\r' || c == '\n'

def isWordStart (c : Char) : Bool :=
  c.isAlpha || c == '_'

def isWordChar (c : Char) : Bool :=
  c.isAlphanum || c == '_'

def isLiteralChar (c : Char) : Bool :=
  isWordChar c || c == '.'

def Token.ofWord (word : String) : Token :=
  match word with
  | "contains" => .operator .contains
  | "in" => .operator .isIn
  | "and" => .and
  | "or" => .or
  | _ => .identifier word

/-- A piece of the text: its characters behind the first one, and the token that it is, if it is
one. -/
structure Lexeme where
  token? : Option Token
  tail : List Char

/-- The longest piece at the front of the text `c :: cs`, which does not start with a blank. A
quotation without an end reaches to the end of the text. -/
def lexeme (c : Char) (cs : List Char) : Lexeme :=
  if isWordStart c then
    let word := cs.takeWhile isWordChar
    ⟨some (Token.ofWord (String.ofList (c :: word))), word⟩
  else if c.isDigit then
    let number := cs.takeWhile isLiteralChar
    ⟨some (.literal (String.ofList (c :: number))), number⟩
  else if c == '\'' || c == '"' then
    let body := cs.takeWhile (· != c)
    if body.length < cs.length then
      ⟨some (.literal (String.ofList (c :: body ++ [c]))), body ++ [c]⟩
    else
      ⟨none, cs⟩
  else
    match c, cs with
    | '!', '=' :: _ => ⟨some (.operator .ne), ['=']⟩
    | '<', '=' :: _ => ⟨some (.operator .le), ['=']⟩
    | '>', '=' :: _ => ⟨some (.operator .ge), ['=']⟩
    | '=', _ => ⟨some (.operator .eq), []⟩
    | '<', _ => ⟨some (.operator .lt), []⟩
    | '>', _ => ⟨some (.operator .gt), []⟩
    | '?', _ => ⟨some .placeholder, []⟩
    | '(', _ => ⟨some .leftParen, []⟩
    | ')', _ => ⟨some .rightParen, []⟩
    | _, _ => ⟨none, []⟩

def Token.pairing? : Token → Option (Operator × Token)
  | .identifier "starts" => some (.startsWith, .identifier "with")
  | .identifier "not" => some (.notIn, .operator .isIn)
  | _ => none

abbrev LexAnswer := Except ParseError SpannedToken

/-- The part of the text that is still to be split, which starts at a byte of the whole, and a token
that was taken and not yet delivered. -/
structure Scanner where
  rest : List Char
  offset : Nat
  pending : Option SpannedToken
deriving Repr

namespace Scanner

def ofText (cs : List Char) : Scanner :=
  ⟨cs, 0, none⟩

def size (s : Scanner) : Nat :=
  s.rest.length + (if s.pending.isSome then 1 else 0)

def skipBlanks (s : Scanner) : Scanner :=
  let blanks := s.rest.takeWhile isFilterBlank
  { s with rest := s.rest.dropWhile isFilterBlank, offset := s.offset + byteLength blanks }

def takePiece (c : Char) (cs : List Char) (offset : Nat) : LexAnswer × Scanner :=
  let piece := lexeme c cs
  let stop := offset + byteLength (c :: piece.tail)
  (match piece.token? with
    | some token => .ok ⟨token, ⟨offset, stop⟩⟩
    | none => .error ⟨.unexpectedText (String.ofList (c :: piece.tail)), ⟨offset, stop⟩⟩,
    ⟨cs.drop piece.tail.length, stop, none⟩)

/-- The next piece of the text, the token that waits before all others. At the end of the text
there is none. -/
def nextPiece (s : Scanner) : Option LexAnswer × Scanner :=
  match s.pending, s.skipBlanks.rest with
  | some token, _ => (some (.ok token), { s with pending := none })
  | none, [] => (none, s.skipBlanks)
  | none, c :: cs =>
    match takePiece c cs s.skipBlanks.offset with
    | (answer, s) => (some answer, s)

/-- The next token. A word that begins an operator is put together with the second word, if that
one follows; a fault in the place of the second word takes the place of the first one too. -/
def next (s : Scanner) : Option LexAnswer × Scanner :=
  match s.nextPiece with
  | (some (.ok first), s) =>
    match first.value.pairing? with
    | none => (some (.ok first), s)
    | some (op, word) =>
      match s.nextPiece with
      | (some (.ok second), s) =>
        if second.value = word then
          (some (.ok ⟨.operator op, first.span.merge second.span⟩), s)
        else
          (some (.ok first), { s with pending := some second })
      | (some (.error e), s) => (some (.error e), s)
      | (none, s) => (some (.ok first), s)
  | other => other

theorem length_skipBlanks (s : Scanner) : s.skipBlanks.rest.length ≤ s.rest.length :=
  (List.dropWhile_sublist isFilterBlank).length_le

theorem pending_nextPiece (s : Scanner) : s.nextPiece.2.pending = none := by
  unfold nextPiece
  split
  . rfl
  . assumption
  . rfl

theorem size_nextPiece {s s' : Scanner} {answer : LexAnswer} (h : s.nextPiece = (some answer, s'))
    : s'.size < s.size := by
  unfold nextPiece at h
  split at h
  . next hpending =>
    cases h
    simp [size, hpending]
  . cases h
  . next c cs _ hrest =>
    have hlength := length_skipBlanks s
    rw [hrest, List.length_cons] at hlength
    cases h
    simp only [size, List.length_drop, Option.isSome_none, Bool.false_eq_true, if_false]
    omega

theorem size_nextPiece_le (s : Scanner) : s.nextPiece.2.size ≤ s.size := by
  cases h : s.nextPiece with
  | mk answer s' =>
    cases answer with
    | some answer => exact Nat.le_of_lt (size_nextPiece h)
    | none =>
      unfold nextPiece at h
      split at h
      . cases h
      . next hpending hrest =>
        cases h
        have hpending' : s.skipBlanks.pending = none := hpending
        simp [size, hrest, hpending']
      . cases h

/-- A token that has to wait again takes the place of the piece that it was. -/
theorem size_pending_le {s s' : Scanner} {answer : LexAnswer} (h : s.nextPiece = (some answer, s'))
    (token : Spanned Token) : ({ s' with pending := some token } : Scanner).size ≤ s.size := by
  have hlt := size_nextPiece h
  have hpending := pending_nextPiece s
  rw [h] at hpending
  dsimp only at hpending
  unfold size at hlt ⊢
  rw [hpending] at hlt
  exact hlt

theorem size_next {s s' : Scanner} {answer : LexAnswer} (h : s.next = (some answer, s'))
    : s'.size < s.size := by
  unfold next at h
  split at h
  . next first s₁ h₁ =>
    have hlt := size_nextPiece h₁
    have hle := size_nextPiece_le s₁
    split at h
    . cases h
      exact hlt
    . split at h
      . next second s₂ h₂ =>
        rw [h₂] at hle
        split at h
        . cases h
          exact Nat.lt_of_le_of_lt hle hlt
        . cases h
          exact Nat.lt_of_le_of_lt (size_pending_le h₂ second) hlt
      . next h₂ =>
        rw [h₂] at hle
        cases h
        exact Nat.lt_of_le_of_lt hle hlt
      . next h₂ =>
        rw [h₂] at hle
        cases h
        exact Nat.lt_of_le_of_lt hle hlt
  . exact size_nextPiece h

def answers (s : Scanner) : List LexAnswer :=
  match _h : s.next with
  | (none, _) => []
  | (some answer, s') => answer :: s'.answers
termination_by s.size
decreasing_by exact size_next _h

end Scanner

def lexAnswers (source : String) : List LexAnswer :=
  (Scanner.ofText source.toList).answers

def tokenize (source : String) : Except ParseError (List SpannedToken) :=
  (lexAnswers source).mapM id

/-- A scanner with the answer that was looked at before it was asked for, if there is one. Such an
answer is a token or the end of the text. -/
structure Lexer where
  scanner : Scanner
  peeked : Option (Option SpannedToken)
deriving Repr

namespace Lexer

def ofSource (source : String) : Lexer :=
  ⟨Scanner.ofText source.toList, none⟩

def ofAnswer : Option LexAnswer → Except ParseError (Option SpannedToken)
  | none => .ok none
  | some (.ok token) => .ok (some token)
  | some (.error e) => .error e

def next (l : Lexer) : Except ParseError (Option SpannedToken) × Lexer :=
  match l.peeked with
  | some answer => (.ok answer, { l with peeked := none })
  | none =>
    let (answer, scanner) := l.scanner.next
    (ofAnswer answer, ⟨scanner, none⟩)

/-- Looks at the next token. A fault is not kept: asking again goes on behind it. -/
def peek (l : Lexer) : Except ParseError (Option SpannedToken) × Lexer :=
  match l.peeked with
  | some answer => (.ok answer, l)
  | none =>
    let (answer, scanner) := l.scanner.next
    match ofAnswer answer with
    | .ok token => (.ok token, ⟨scanner, some token⟩)
    | .error e => (.error e, ⟨scanner, none⟩)

end Lexer

end ObjectStore
