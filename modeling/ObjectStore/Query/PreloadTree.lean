import ObjectStore.Keyed
import ObjectStore.Text.Basic

/-!
This module contains preload trees: the relationships that are followed together with a query, and
below each of them those that are followed from its objects.
-/

namespace ObjectStore

/-- A set of paths of relationships. The names at each node are in ascending order. -/
inductive PreloadTree where
  | node (children : List (String × PreloadTree))
deriving Repr

namespace PreloadTree

def empty : PreloadTree := node []

instance : Inhabited PreloadTree := ⟨empty⟩

def children : PreloadTree → List (String × PreloadTree)
  | node children => children

def isEmpty (t : PreloadTree) : Bool :=
  t.children.isEmpty

def insertSegments : List String → PreloadTree → PreloadTree
  | [], t => t
  | s :: ss, node children =>
    node (insertEntry s (insertSegments ss ((children.lookup s).getD empty)) children)

/-- Adds a dotted path. Empty segments do not count. -/
def insertPath (t : PreloadTree) (path : String) : PreloadTree :=
  insertSegments ((Text.segments path).filter (· ≠ "")) t

mutual

def paths : PreloadTree → List String
  | node children => childPaths children

def childPaths : List (String × PreloadTree) → List String
  | [] => []
  | (name, t) :: rest => name :: t.paths.map (fun path => s!"{name}.{path}") ++ childPaths rest

end

mutual

def same : PreloadTree → PreloadTree → Bool
  | node cs, node cs' => sameChildren cs cs'

def sameChildren : List (String × PreloadTree) → List (String × PreloadTree) → Bool
  | [], [] => true
  | (name, t) :: cs, (name', t') :: cs' => name == name' && t.same t' && sameChildren cs cs'
  | _, _ => false

end

mutual

def size : PreloadTree → Nat
  | node children => childrenSize children

def childrenSize : List (String × PreloadTree) → Nat
  | [] => 0
  | (_, t) :: rest => 1 + t.size + childrenSize rest

end

end PreloadTree

end ObjectStore
