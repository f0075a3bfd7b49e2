import ObjectStore.Filter.Condition
import ObjectStore.Filter.Lexer

/-!
This module reads conditions from the answers of a lexer:

    expr := and ("or" and)*
    and  := term ("and" term)*
    term := "(" expr ")" | name operator "?"

Each function takes the answers from its place on and returns what it leaves of them.
-/

namespace ObjectStore.Condition

abbrev Rest (answers : List LexAnswer) := { rest : List LexAnswer // rest.length < answers.length }

abbrev RestOrAll (answers : List LexAnswer) :=
  { rest : List LexAnswer // rest.length ≤ answers.length }

/-- What a reader knows besides the answers: the length of the text in bytes and the number of
placeholders read. -/
structure ReadState where
  sourceLength : Nat
  placeholders : Nat

def takeToken (st : ReadState) (answers : List LexAnswer) :
    Except ParseError (SpannedToken × Rest answers) :=
  match answers with
  | [] => .error ⟨.unexpectedEnd, ⟨st.sourceLength, st.sourceLength⟩⟩
  | .error e :: _ => .error e
  | .ok token :: rest => .ok (token, ⟨rest, by simp⟩)

/-- Takes an operator. The field in front of it ends at the given byte. -/
def takeOperator (st : ReadState) (fieldStop : Nat) (answers : List LexAnswer) :
    Except ParseError (Spanned Operator × Rest answers) :=
  match answers with
  | [] => .error ⟨.missingOperator, ⟨fieldStop, st.sourceLength⟩⟩
  | .error e :: _ => .error e
  | .ok token :: rest =>
    match token.value with
    | .operator op => .ok (⟨op, token.span⟩, ⟨rest, by simp⟩)
    | found => .error ⟨.notOperator found, token.span⟩

def takePlaceholder (st : ReadState) (answers : List LexAnswer) :
    Except ParseError (Spanned Nat × ReadState × Rest answers) := do
  let (token, rest) ← takeToken st answers
  match token.value with
  | .placeholder =>
    return (⟨st.placeholders, token.span⟩, { st with placeholders := st.placeholders + 1 }, rest)
  | found => throw ⟨.notPlaceholder found, token.span⟩

def takeComparison (st : ReadState) (field : Spanned String) (answers : List LexAnswer) :
    Except ParseError (Condition × ReadState × Rest answers) := do
  let (op, ⟨rest, h⟩) ← takeOperator st field.span.stop answers
  let (placeholder, st, ⟨rest', h'⟩) ← takePlaceholder st rest
  return (comparison field op placeholder, st, ⟨rest', Nat.lt_trans h' h⟩)

mutual

def takeTerm (st : ReadState) (answers : List LexAnswer) :
    Except ParseError (Condition × ReadState × Rest answers) :=
  match answers with
  | [] => .error ⟨.unexpectedEnd, ⟨st.sourceLength, st.sourceLength⟩⟩
  | .error e :: _ => .error e
  | .ok ⟨token, span⟩ :: rest =>
    match token with
    | .leftParen => do
      let (inner, st, ⟨rest', h'⟩) ← takeExpr st rest
      let (close, ⟨rest'', h''⟩) ← takeToken st rest'
      if close.value = .rightParen then
        return (inner, st, ⟨rest'', by simp only [List.length_cons]; omega⟩)
      else
        throw ⟨.notClosing close.value, close.span⟩
    | .identifier name => do
      let (condition, st, ⟨rest', h'⟩) ← takeComparison st ⟨name, span⟩ rest
      return (condition, st, ⟨rest', by simp only [List.length_cons]; omega⟩)
    | found => .error ⟨.notTerm found, span⟩
termination_by (answers.length, 0)

def takeAnd (st : ReadState) (answers : List LexAnswer) :
    Except ParseError (Condition × ReadState × Rest answers) := do
  let (left, st, ⟨rest, h⟩) ← takeTerm st answers
  let (condition, st, ⟨rest', h'⟩) ← takeAndTail st left rest
  return (condition, st, ⟨rest', Nat.lt_of_le_of_lt h' h⟩)
termination_by (answers.length, 1)

def takeAndTail (st : ReadState) (left : Condition) (answers : List LexAnswer) :
    Except ParseError (Condition × ReadState × RestOrAll answers) :=
  match answers with
  | .error e :: _ => .error e
  | .ok ⟨.and, _⟩ :: rest => do
    let (right, st, ⟨rest', h'⟩) ← takeTerm st rest
    let (condition, st, ⟨rest'', h''⟩) ← takeAndTail st (left.andAlso right) rest'
    return (condition, st, ⟨rest'', by simp only [List.length_cons]; omega⟩)
  | answers => .ok (left, st, ⟨answers, Nat.le_refl _⟩)
termination_by (answers.length, 2)

def takeExpr (st : ReadState) (answers : List LexAnswer) :
    Except ParseError (Condition × ReadState × Rest answers) := do
  let (left, st, ⟨rest, h⟩) ← takeAnd st answers
  let (condition, st, ⟨rest', h'⟩) ← takeExprTail st left rest
  return (condition, st, ⟨rest', Nat.lt_of_le_of_lt h' h⟩)
termination_by (answers.length, 3)

def takeExprTail (st : ReadState) (left : Condition) (answers : List LexAnswer) :
    Except ParseError (Condition × ReadState × RestOrAll answers) :=
  match answers with
  | .error e :: _ => .error e
  | .ok ⟨.or, _⟩ :: rest => do
    let (right, st, ⟨rest', h'⟩) ← takeAnd st rest
    let (condition, st, ⟨rest'', h''⟩) ← takeExprTail st (left.orElse right) rest'
    return (condition, st, ⟨rest'', by simp only [List.length_cons]; omega⟩)
  | answers => .ok (left, st, ⟨answers, Nat.le_refl _⟩)
termination_by (answers.length, 4)

end

def ofAnswers (sourceLength : Nat) (answers : List LexAnswer) : Except ParseError Condition := do
  let (condition, _, ⟨rest, _⟩) ← takeExpr ⟨sourceLength, 0⟩ answers
  match rest with
  | [] => return condition
  | .error e :: _ => throw e
  | .ok token :: _ => throw ⟨.trailing token.value, token.span⟩

def parse (source : String) : Except ParseError Condition :=
  ofAnswers source.utf8ByteSize (lexAnswers source)

end ObjectStore.Condition
