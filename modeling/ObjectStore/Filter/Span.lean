/-!
This module contains places in the text of a filter: ranges of bytes, and the lines and columns that
readers see.
-/

namespace ObjectStore

structure Span where
  start : Nat
  stop : Nat
deriving DecidableEq, Repr, Inhabited

namespace Span

def none : Span := ⟨0, 0⟩

def merge (a b : Span) : Span :=
  ⟨min a.start b.start, max a.stop b.stop⟩

def length (s : Span) : Nat :=
  s.stop - s.start

def isEmpty (s : Span) : Bool :=
  s.start == s.stop

end Span

structure Spanned (α : Type) where
  value : α
  span : Span
deriving DecidableEq, Repr

def byteLength (cs : List Char) : Nat :=
  cs.foldr (fun c n => c.utf8Size + n) 0

/-- A line and a column in it, both counted from 1. Columns count characters. -/
structure Position where
  line : Nat
  column : Nat
deriving DecidableEq, Repr

namespace Position

def first : Position := ⟨1, 1⟩

def after (p : Position) (c : Char) : Position :=
  if c = '\n' then ⟨p.line + 1, 1⟩ else ⟨p.line, p.column + 1⟩

/-- The position of a byte of the text. Bytes within a character belong to the one behind it, and
bytes beyond the end have the position of the end. -/
def ofOffset (cs : List Char) (offset : Nat) : Position :=
  go cs 0 first
where
  go (cs : List Char) (i : Nat) (p : Position) : Position :=
    match cs with
    | [] => p
    | c :: cs => if offset ≤ i then p else go cs (i + c.utf8Size) (p.after c)

end Position

end ObjectStore
