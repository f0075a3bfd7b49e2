import ObjectStore.Keyed
import ObjectStore.Text.Basic

/-!
This module contains display templates: texts with paths to attributes between braces.
-/

namespace ObjectStore

def splitAtChar? (c : Char) : List Char → Option (List Char × List Char)
  | [] => none
  | d :: cs => if d = c then some ([], cs) else (splitAtChar? c cs).map fun (a, b) => (d :: a, b)

theorem length_of_splitAtChar? {c : Char} {cs a b : List Char}
    (h : splitAtChar? c cs = some (a, b)) : b.length < cs.length := by
  induction cs generalizing a with
  | nil => simp [splitAtChar?] at h
  | cons d cs ih =>
    unfold splitAtChar? at h
    split at h
    . simp only [Option.some.injEq, Prod.mk.injEq] at h
      simp [h.2]
    . obtain ⟨⟨a', b'⟩, h', heq⟩ := Option.map_eq_some_iff.1 h
      simp only [Prod.mk.injEq] at heq
      have := ih (heq.2 ▸ h')
      simp only [List.length_cons]
      omega

structure DisplayFormat where
  template : String
deriving DecidableEq, Repr

namespace DisplayFormat

/-- The texts between an opening brace and the next closing one, without blanks around them, in
order. Empty ones are left out, and a brace that is not closed ends the search. -/
def placeholderChars (cs : List Char) : List (List Char) :=
  match _h : splitAtChar? '\x7b' cs with
  | none => []
  | some (_, after) =>
    match _h' : splitAtChar? '\x7d' after with
    | none => []
    | some (path, rest) =>
      let path := Text.trim path
      if path.isEmpty then placeholderChars rest else path :: placeholderChars rest
termination_by cs.length
decreasing_by
  all_goals
    have := length_of_splitAtChar? _h
    have := length_of_splitAtChar? _h'
    omega

def placeholders (f : DisplayFormat) : List String :=
  (placeholderChars f.template.toList).map String.ofList

def relationPart? (path : String) : Option String :=
  (splitAtChar? '.' path.toList.reverse).map fun (_, before) => String.ofList before.reverse

/-- The relationships that the template follows, in ascending order and each once: its paths without
the attribute at their end. -/
def relationshipPaths (f : DisplayFormat) : List String :=
  (Names.ofNames (f.placeholders.filterMap relationPart?)).names

end DisplayFormat

end ObjectStore
