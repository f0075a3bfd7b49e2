import ObjectStore.Decimal.Digits
import ObjectStore.Filter.Span

/-!
This module shows a place in the text of a filter: the line that it is on, with a mark below.
-/

namespace ObjectStore

/-- The lines of a text. Line feeds end them, together with a carriage return directly in front. What
follows the last line feed is a line only if there is something in it. -/
def lines (cs : List Char) : List (List Char) :=
  go [] cs
where
  go (current : List Char) : List Char → List (List Char)
    | [] => if current.isEmpty then [] else [current.reverse]
    | '\n' :: cs =>
      let line :=
        match current with
        | '\r' :: rest => rest
        | other => other
      line.reverse :: go [] cs
    | c :: cs => go (c :: current) cs

def padLeft (width : Nat) (cs : List Char) : List Char :=
  List.replicate (width - cs.length) ' ' ++ cs

/-- The number of marks behind the caret below a line: one for each further byte of the span, but no
more than the line has bytes beyond the column. -/
def underlineLength (line : List Char) (column : Nat) (span : Span) : Nat :=
  min (span.length - 1) (byteLength line - column)

/-- The line of a text that a span starts on, with a caret below the start and a line of marks behind
the caret. Where the text has no such line there is only its number. -/
def snippet (source : String) (span : Span) : String :=
  let p := Position.ofOffset source.toList span.start
  let number := Decimal.digits p.line
  let header := s!"  --> line {p.line}:{p.column}\n"
  match (lines source.toList)[p.line - 1]? with
  | none => header
  | some line =>
    header ++ "   |\n" ++ String.ofList (padLeft 3 number) ++ "| " ++ String.ofList line ++
      "\n   |" ++ String.ofList (List.replicate p.column ' ') ++ "^" ++
      String.ofList (List.replicate (underlineLength line p.column span) '~') ++ "\n"

end ObjectStore
