import ObjectStore.Filter.Operator
import ObjectStore.Filter.Span

/-!
This module contains the tokens of the filter language.
-/

namespace ObjectStore

inductive Token where
  | operator (op : Operator)
  | and
  | or
  | identifier (name : String)
  | placeholder
  /-- A number or a quoted text. No filter has one, but they are known for the sake of messages. -/
  | literal (text : String)
  | leftParen
  | rightParen
deriving DecidableEq, Repr

abbrev SpannedToken := Spanned Token

namespace Token

def spelling : Token → String
  | operator op => op.spelling
  | and => "and"
  | or => "or"
  | identifier name => name
  | placeholder => "?"
  | literal text => text
  | leftParen => "("
  | rightParen => ")"

def describe : Token → String
  | identifier name => s!"identifier '{name}'"
  | literal text => s!"literal {text}"
  | t => s!"'{t.spelling}'"

end Token

end ObjectStore
