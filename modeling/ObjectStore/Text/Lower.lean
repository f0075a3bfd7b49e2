import ObjectStore.Text.Basic
import ObjectStore.Text.CaseRanges

/-!
This module contains the lowercase form of a text under the full Unicode mapping: `İ` becomes two
characters, and the form of a sigma depends on the letters around it.
-/

namespace ObjectStore.Text

def isCased (c : Char) : Bool :=
  c.isAlpha || (0x7F < c.toNat && inRanges casedRanges c)

def isCaseIgnorable (c : Char) : Bool :=
  c ∈ ['\'', '.', ':', '^', Char.ofNat 0x60] || (0x7F < c.toNat && inRanges caseIgnorableRanges c)

def meetsCased (cs : List Char) : Bool :=
  (cs.dropWhile isCaseIgnorable).head?.any isCased

def LowerRun.partner? (run : LowerRun) (c : Char) : Option Char :=
  if run.first ≤ c.toNat && c.toNat ≤ run.last && (c.toNat - run.first) % run.step == 0 then
    some (Char.ofNat (c.toNat + run.offset).toNat)
  else
    none

def lowerChar (c : Char) : List Char :=
  if c.toNat ≤ 0x7F then
    [c.toLower]
  else if c = 'İ' then
    ['i', '\u0307']
  else
    [(lowerRuns.findSome? (·.partner? c)).getD c]

/-- The lowercase form of a text. A sigma that ends a word, with a cased character before it and
none after it, has a form of its own. -/
def lower (cs : List Char) : List Char :=
  go [] cs
where
  go (before : List Char) : List Char → List Char
    | [] => []
    | c :: cs =>
      let form :=
        if c = 'Σ' then
          if meetsCased before && !meetsCased cs then ['ς'] else ['σ']
        else
          lowerChar c
      form ++ go (c :: before) cs

def lowercase (s : String) : String :=
  String.ofList (lower s.toList)

end ObjectStore.Text
