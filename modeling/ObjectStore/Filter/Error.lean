import ObjectStore.Filter.Snippet
import ObjectStore.Filter.Token
import ObjectStore.Schema.AttributeType

/-!
This module contains what can be wrong with a filter and the messages about it.
-/

namespace ObjectStore

inductive ParseFault where
  | unexpectedText (text : String)
  | unexpectedEnd
  | missingOperator
  | trailing (found : Token)
  | notClosing (found : Token)
  | notTerm (found : Token)
  | notOperator (found : Token)
  | notPlaceholder (found : Token)
deriving DecidableEq, Repr

structure ParseError where
  fault : ParseFault
  span : Span
deriving DecidableEq, Repr

namespace ParseError

def message (e : ParseError) : String :=
  match e.fault with
  | .unexpectedText text => s!"unexpected character '{text}'"
  | .unexpectedEnd => "unexpected end of input"
  | .missingOperator => "unexpected end of input, expected operator"
  | .trailing found => s!"unexpected {found.describe} after expression"
  | .notClosing found => s!"expected ')', found {found.describe}"
  | .notTerm found => s!"expected attribute name or '(', found {found.describe}"
  | .notOperator found => s!"expected operator, found {found.describe}"
  | .notPlaceholder found => s!"expected '?', found {found.describe}"

def hint? (e : ParseError) : Option String :=
  match e.fault with
  | .unexpectedText "!" => some "use '!=' for inequality"
  | .trailing _ => some "combine conditions with 'and' or 'or'"
  | .notPlaceholder _ => some "values are passed as arguments through '?' placeholders"
  | _ => none

def text (e : ParseError) : String :=
  s!"{e.message} at {e.span.start}..{e.span.stop}"

def report (e : ParseError) (source : String) : String :=
  let hint := (e.hint?.map fun hint => s!"   = hint: {hint}\n").getD ""
  s!"error: {e.message}\n" ++ snippet source e.span ++ hint

end ParseError

inductive CompileFault where
  | unknownAttribute (typeName name : String)
  | hasManyFilter (typeName name : String)
  | missingArgument (index supplied : Nat)
  | notList (op : Operator) (field kind : String)
  | badCast (e : CastError)
  | notId (field kind : String)
deriving DecidableEq, Repr

inductive CompileErrorKind where
  | unknownAttribute
  | hasManyFilter
  | missingArgument
  | invalidOperand
deriving DecidableEq, Repr

def CompileErrorKind.name : CompileErrorKind → String
  | unknownAttribute => "UnknownAttribute"
  | hasManyFilter => "HasManyFilter"
  | missingArgument => "MissingArgument"
  | invalidOperand => "InvalidOperand"

structure CompileError where
  fault : CompileFault
  span : Span
deriving DecidableEq, Repr

namespace CompileError

def kind (e : CompileError) : CompileErrorKind :=
  match e.fault with
  | .unknownAttribute .. => .unknownAttribute
  | .hasManyFilter .. => .hasManyFilter
  | .missingArgument .. => .missingArgument
  | .notList .. | .badCast _ | .notId .. => .invalidOperand

def message (e : CompileError) : String :=
  match e.fault with
  | .unknownAttribute typeName name => s!"unknown attribute '{name}' on type '{typeName}'"
  | .hasManyFilter typeName name =>
    s!"has-many relationship '{name}' on type '{typeName}' cannot be used in a filter"
  | .missingArgument index supplied =>
    s!"placeholder #{index + 1} has no argument ({supplied} supplied)"
  | .notList op field kind => s!"'{op.spelling}' on '{field}' needs an array argument, got {kind}"
  | .badCast e => e.message
  | .notId field kind => s!"'{field}' compares against ids, got {kind}"

def report (e : CompileError) (source : String) : String :=
  s!"error[{e.kind.name}]: {e.message}\n" ++ snippet source e.span

end CompileError

inductive FilterError where
  | parse (e : ParseError)
  | compile (e : CompileError)
deriving DecidableEq, Repr

def FilterError.message : FilterError → String
  | parse e => s!"parse error: {e.text}"
  | compile e => s!"compile error: {e.message}"

end ObjectStore
