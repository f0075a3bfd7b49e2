/-!
This module contains operations on texts: it takes blank characters off the ends, splits a text at every
occurrence of a character, and looks for one text inside another.
-/

namespace ObjectStore.Text

def inRanges (ranges : List (Nat × Nat)) (c : Char) : Bool :=
  ranges.any fun (first, last) => first ≤ c.toNat && c.toNat ≤ last

def blankRanges : List (Nat × Nat) := [
  (0x0009, 0x000D), (0x0020, 0x0020), (0x0085, 0x0085), (0x00A0, 0x00A0), (0x1680, 0x1680),
  (0x2000, 0x200A), (0x2028, 0x2029), (0x202F, 0x202F), (0x205F, 0x205F), (0x3000, 0x3000)]

def isBlank (c : Char) : Bool :=
  inRanges blankRanges c

def trimStart (cs : List Char) : List Char :=
  cs.dropWhile isBlank

def trimEnd (cs : List Char) : List Char :=
  (trimStart cs.reverse).reverse

def trim (cs : List Char) : List Char :=
  trimEnd (trimStart cs)

theorem trimStart_head {cs : List Char} {c : Char} {rest : List Char}
    (h : trimStart cs = c :: rest) : isBlank c = false := by
  have := List.head?_dropWhile_not isBlank cs
  simp only [trimStart] at h
  simpa [h] using this

def splitAt (c : Char) : List Char → List (List Char)
  | [] => [[]]
  | d :: cs =>
    if d = c then
      [] :: splitAt c cs
    else
      match splitAt c cs with
      | [] => [[d]]
      | part :: parts => (d :: part) :: parts

theorem splitAt_ne_nil (c : Char) (cs : List Char) : splitAt c cs ≠ [] := by
  cases cs with
  | nil => simp [splitAt]
  | cons d cs =>
    unfold splitAt
    split
    . simp
    . split <;> simp

def segments (path : String) : List String :=
  (splitAt '.' path.toList).map String.ofList

def hasInfix (needle : List Char) : List Char → Bool
  | [] => needle.isEmpty
  | c :: cs => needle.isPrefixOf (c :: cs) || hasInfix needle cs

theorem hasInfix_of_isPrefixOf {needle cs : List Char} (h : needle.isPrefixOf cs = true)
    : hasInfix needle cs = true := by
  cases cs with
  | nil => cases needle <;> simp_all [hasInfix]
  | cons c cs => simp [hasInfix, h]

theorem hasInfix_iff {needle cs : List Char} : hasInfix needle cs = true ↔ needle <:+: cs := by
  induction cs with
  | nil => cases needle <;> simp [hasInfix]
  | cons c cs ih => simp [hasInfix, ih, List.infix_cons_iff, List.isPrefixOf_iff_prefix]

end ObjectStore.Text
