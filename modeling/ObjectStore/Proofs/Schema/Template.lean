import Mathlib.Data.List.DropRight
import ObjectStore.Proofs.Keyed
import ObjectStore.Schema.DisplayFormat

/-!
This module proves that display templates are scanned completely. A template is text with paths in braces,
and at its end there may be a brace that is not closed. What a scan finds in one path and the text in front
of it is said by one equation, and what it finds in all of them follows by induction. The relationships of a
template are what its paths have in front of their last dots.
-/

namespace ObjectStore

/-! A text is split at the first place of a character. -/

section

variable {c : Char} {cs front back : List Char}

theorem splitAtChar?_append (h : c ∉ front) (back : List Char)
    : splitAtChar? c (front ++ c :: back) = some (front, back) := by
  induction front with
  | nil => exact if_pos rfl
  | cons d front ih =>
    rw [List.mem_cons, not_or] at h
    rw [List.cons_append, splitAtChar?, if_neg (Ne.symm h.1), ih h.2]
    rfl

theorem eq_append_of_splitAtChar? (h : splitAtChar? c cs = some (front, back))
    : cs = front ++ c :: back ∧ c ∉ front := by
  induction cs generalizing front with
  | nil => cases h
  | cons d cs ih =>
    rw [splitAtChar?] at h
    split at h
    . next hd =>
      cases h
      exact ⟨by rw [hd, List.nil_append], List.not_mem_nil⟩
    . next hd =>
      obtain ⟨⟨front', back'⟩, hsplit, heq⟩ := Option.map_eq_some_iff.1 h
      cases heq
      obtain ⟨rfl, hfront⟩ := ih hsplit
      rw [List.mem_cons, not_or]
      exact ⟨rfl, Ne.symm hd, hfront⟩

theorem splitAtChar?_eq_some_iff
    : splitAtChar? c cs = some (front, back) ↔ cs = front ++ c :: back ∧ c ∉ front := by
  constructor
  . exact eq_append_of_splitAtChar?
  . rintro ⟨rfl, h⟩
    exact splitAtChar?_append h back

theorem splitAtChar?_eq_none_iff : splitAtChar? c cs = none ↔ c ∉ cs := by
  rw [Option.eq_none_iff_forall_ne_some]
  constructor
  . intro h hmem
    obtain ⟨front, back, hcs, hfront⟩ := List.eq_append_cons_of_mem hmem
    exact h (front, back) (splitAtChar?_eq_some_iff.2 ⟨hcs, hfront⟩)
  . rintro h ⟨front, back⟩ hsplit
    rw [(eq_append_of_splitAtChar? hsplit).1] at h
    exact h List.mem_append_cons_self

end

namespace Text

/-- The second text is what is left of the first one without the blanks around it. -/
structure Trims (cs core : List Char) : Prop where
  around : ∃ left right, cs = left ++ (core ++ right)
    ∧ (∀ c ∈ left, isBlank c = true) ∧ ∀ c ∈ right, isBlank c = true
  head : ∀ c ∈ core.head?, isBlank c = false
  last : ∀ c ∈ core.getLast?, isBlank c = false

theorem trims_trim (cs : List Char) : Trims cs (trim cs) := by
  have htrim : trim cs = (cs.dropWhile isBlank).rdropWhile isBlank := rfl
  have hsplit : (cs.dropWhile isBlank).rdropWhile isBlank ++ (cs.dropWhile isBlank).rtakeWhile isBlank
      = cs.dropWhile isBlank :=
    List.rdropWhile_append_rtakeWhile
  rw [htrim]
  constructor
  . refine ⟨cs.takeWhile isBlank, (cs.dropWhile isBlank).rtakeWhile isBlank, ?_, ?_, ?_⟩
    . rw [hsplit, List.takeWhile_append_dropWhile]
    . intro c hc
      exact List.mem_takeWhile_imp hc
    . intro c hc
      exact List.mem_rtakeWhile_imp hc
  . intro c hc
    obtain ⟨rest, hcore⟩ := List.head?_eq_some_iff.1 hc
    rw [hcore] at hsplit
    exact trimStart_head hsplit.symm
  . intro c hc
    obtain ⟨hne, hlast⟩ := List.mem_getLast?_eq_getLast hc
    have hstop := List.rdropWhile_last_not isBlank _ hne
    rw [hlast]
    exact eq_false_of_ne_true hstop

end Text

/-- A path in braces, and the text behind it. -/
structure Template.Slot where
  path : List Char
  text : List Char
  closing_not_mem : '\x7d' ∉ path
  opening_not_mem : '\x7b' ∉ text

namespace Template.Slot

def chars (s : Template.Slot) : List Char :=
  '\x7b' :: (s.path ++ '\x7d' :: s.text)

end Template.Slot

/-- A display template in parts: text, paths in braces with text behind each of them, and what stands
behind a last brace that is not closed, if there is one. -/
structure Template where
  lead : List Char
  slots : List Template.Slot
  unclosed? : Option (List Char)
  opening_not_mem : '\x7b' ∉ lead
  closing_not_mem : ∀ rest ∈ unclosed?, '\x7d' ∉ rest

namespace Template

def unclosedChars : Option (List Char) → List Char
  | none => []
  | some rest => '\x7b' :: rest

def chars (t : Template) : List Char :=
  t.lead ++ (t.slots.flatMap Slot.chars ++ unclosedChars t.unclosed?)

def format (t : Template) : DisplayFormat :=
  ⟨String.ofList t.chars⟩

/-- The paths without blanks around them, except for empty ones. -/
def paths (t : Template) : List (List Char) :=
  (t.slots.map fun s => Text.trim s.path).filter (· ≠ [])

end Template

namespace DisplayFormat

/-- A scan takes one path and goes on behind it. -/
theorem placeholderChars_eq (cs : List Char)
    : placeholderChars cs
      = match splitAtChar? '\x7b' cs with
        | none => []
        | some (_, after) =>
          match splitAtChar? '\x7d' after with
          | none => []
          | some (path, rest) => [Text.trim path].filter (· ≠ []) ++ placeholderChars rest := by
  rw [placeholderChars]
  split
  . next hopen => rw [hopen]
  . next hopen =>
    rw [hopen]
    split
    . next hclose => simp only [hclose]
    . next path rest hclose =>
      simp only [hclose]
      cases Text.trim path <;> rfl

variable {lead path rest : List Char}

theorem placeholderChars_of_not_mem (hlead : '\x7b' ∉ lead) : placeholderChars lead = [] := by
  rw [placeholderChars_eq, splitAtChar?_eq_none_iff.2 hlead]

theorem placeholderChars_unclosed (hlead : '\x7b' ∉ lead) (hrest : '\x7d' ∉ rest)
    : placeholderChars (lead ++ '\x7b' :: rest) = [] := by
  rw [placeholderChars_eq, splitAtChar?_append hlead]
  simp only [splitAtChar?_eq_none_iff.2 hrest]

theorem placeholderChars_slot (hlead : '\x7b' ∉ lead) (hpath : '\x7d' ∉ path) (rest : List Char)
    : placeholderChars (lead ++ '\x7b' :: (path ++ '\x7d' :: rest))
      = [Text.trim path].filter (· ≠ []) ++ placeholderChars rest := by
  rw [placeholderChars_eq, splitAtChar?_append hlead]
  simp only [splitAtChar?_append hpath]

end DisplayFormat

namespace Template

theorem placeholderChars_slots {lead : List Char} (hlead : '\x7b' ∉ lead) (slots : List Slot)
    {unclosed? : Option (List Char)} (hunclosed : ∀ rest ∈ unclosed?, '\x7d' ∉ rest)
    : DisplayFormat.placeholderChars (lead ++ (slots.flatMap Slot.chars ++ unclosedChars unclosed?))
      = (slots.map fun s => Text.trim s.path).filter (· ≠ []) := by
  -- The text behind a slot is in front of the next one, so any text without an opening brace may lead.
  induction slots generalizing lead with
  | nil =>
    cases unclosed? with
    | none =>
      rw [List.flatMap_nil, unclosedChars, List.append_nil, List.append_nil]
      exact DisplayFormat.placeholderChars_of_not_mem hlead
    | some rest => exact DisplayFormat.placeholderChars_unclosed hlead (hunclosed rest rfl)
  | cons s slots ih =>
    have hchars : lead ++ ((s :: slots).flatMap Slot.chars ++ unclosedChars unclosed?)
        = lead ++ '\x7b' :: (s.path ++ '\x7d' ::
            (s.text ++ (slots.flatMap Slot.chars ++ unclosedChars unclosed?))) := by
      simp [Slot.chars]
    rw [hchars, DisplayFormat.placeholderChars_slot hlead s.closing_not_mem, ih s.opening_not_mem,
      List.map_cons, ← List.filter_append, List.singleton_append]

theorem placeholderChars_chars (t : Template) : DisplayFormat.placeholderChars t.chars = t.paths :=
  placeholderChars_slots t.opening_not_mem t.slots t.closing_not_mem

theorem placeholders_format (t : Template) : t.format.placeholders = t.paths.map String.ofList := by
  unfold DisplayFormat.placeholders format
  rw [String.toList_ofList, placeholderChars_chars]

/-! Every text is that of a template. -/

theorem exists_chars_slot {lead path rest : List Char} (hlead : '\x7b' ∉ lead) (hpath : '\x7d' ∉ path)
    (hrest : ∃ t : Template, t.chars = rest)
    : ∃ t : Template, t.chars = lead ++ '\x7b' :: (path ++ '\x7d' :: rest) := by
  obtain ⟨t, rfl⟩ := hrest
  refine ⟨⟨lead, ⟨path, t.lead, hpath, t.opening_not_mem⟩ :: t.slots, t.unclosed?, hlead,
    t.closing_not_mem⟩, ?_⟩
  simp [chars, Slot.chars]

theorem exists_chars_eq (cs : List Char) : ∃ t : Template, t.chars = cs := by
  fun_induction DisplayFormat.placeholderChars cs with
  | case1 cs hopen =>
    refine ⟨⟨cs, [], none, splitAtChar?_eq_none_iff.1 hopen, nofun⟩, ?_⟩
    simp [chars, unclosedChars]
  | case2 cs lead after hopen hclose =>
    obtain ⟨rfl, hlead⟩ := splitAtChar?_eq_some_iff.1 hopen
    refine ⟨⟨lead, [], some after, hlead, ?_⟩, rfl⟩
    rintro _ ⟨⟩
    exact splitAtChar?_eq_none_iff.1 hclose
  | case3 cs lead after hopen path rest hclose _ _ ih | case4 cs lead after hopen path rest hclose _ _ ih =>
    obtain ⟨rfl, hlead⟩ := splitAtChar?_eq_some_iff.1 hopen
    obtain ⟨rfl, hpath⟩ := splitAtChar?_eq_some_iff.1 hclose
    exact exists_chars_slot hlead hpath ih

end Template

namespace DisplayFormat

theorem relationPart?_eq_some_iff {path relation : String}
    : relationPart? path = some relation
        ↔
      ∃ last, path.toList = relation.toList ++ '.' :: last ∧ '.' ∉ last := by
  unfold relationPart?
  rw [Option.map_eq_some_iff]
  -- The last dot of a path is the first one of its characters in reverse.
  constructor
  . rintro ⟨⟨last, before⟩, hsplit, rfl⟩
    obtain ⟨hpath, hdot⟩ := splitAtChar?_eq_some_iff.1 hsplit
    refine ⟨last.reverse, ?_, fun h => hdot (List.mem_reverse.1 h)⟩
    rw [← List.reverse_reverse path.toList, hpath]
    simp
  . rintro ⟨last, hpath, hdot⟩
    refine ⟨(last.reverse, relation.toList.reverse), splitAtChar?_eq_some_iff.2 ?_, ?_⟩
    . exact ⟨by simp [hpath], fun h => hdot (List.mem_reverse.1 h)⟩
    . simp

theorem mem_relationshipPaths_iff {f : DisplayFormat} {relation : String}
    : relation ∈ f.relationshipPaths
        ↔
      ∃ path ∈ f.placeholders, ∃ last,
        path.toList = relation.toList ++ '.' :: last ∧ '.' ∉ last := by
  unfold relationshipPaths
  rw [Names.mem_ofNames_iff, List.mem_filterMap]
  simp only [relationPart?_eq_some_iff]

end DisplayFormat

namespace Template

/-- A scan finds the paths of a template in order, and nothing else. They are what is left in the slots
without the blanks. The relationships are in ascending order, and they are what the paths have in front of
their last dots. There is no text that is not of this form. -/
theorem scanned_completely
    : (∀ t : Template, t.format.placeholders = t.paths.map String.ofList
        ∧ (∀ slot ∈ t.slots, Text.Trims slot.path (Text.trim slot.path))
        ∧ t.format.relationshipPaths.Pairwise (· < ·)
        ∧ ∀ relation : String, relation ∈ t.format.relationshipPaths
          ↔
        ∃ path ∈ t.paths, ∃ last, path = relation.toList ++ '.' :: last ∧ '.' ∉ last)
      ∧ ∀ f : DisplayFormat, ∃ t : Template, t.format = f := by
  constructor
  . intro t
    refine ⟨t.placeholders_format, ?_, ?_, ?_⟩
    . intro slot _
      exact Text.trims_trim slot.path
    . exact Keyed.names_ascending _
    . intro relation
      rw [DisplayFormat.mem_relationshipPaths_iff, placeholders_format]
      simp only [List.mem_map, exists_exists_and_eq_and, String.toList_ofList]
  . rintro ⟨template⟩
    obtain ⟨t, ht⟩ := exists_chars_eq template.toList
    refine ⟨t, ?_⟩
    rw [format, ht, String.ofList_toList]

/-- A template with closing braces in its text, an opening one in a path, a path of blanks, a path without
an attribute, and a brace that is not closed. -/
def stray : Template where
  lead := "a\x7d ".toList
  slots := [
    ⟨" room.name ".toList, "b\x7d".toList, by decide, by decide⟩,
    ⟨"\x7bx.y.z".toList, [], by decide, by decide⟩,
    ⟨[' '], [], by decide, by decide⟩,
    ⟨"room.".toList, ['c'], by decide, by decide⟩]
  unclosed? := some ['d']
  opening_not_mem := by decide
  closing_not_mem := by
    rintro _ ⟨⟩
    decide

theorem scanned_completely_of_stray
    : stray.format.template = "a\x7d \x7b room.name \x7db\x7d\x7b\x7bx.y.z\x7d\x7b \x7d\x7broom.\x7dc\x7bd"
        ∧ stray.format.placeholders = ["room.name", "\x7bx.y.z", "room."]
        ∧ Text.Trims " room.name ".toList "room.name".toList
        ∧ stray.format.relationshipPaths.Pairwise (· < ·)
        ∧ "room" ∈ stray.format.relationshipPaths
        ∧ "\x7bx.y" ∈ stray.format.relationshipPaths := by
  obtain ⟨hplaceholders, htrims, hascending, hrelations⟩ := scanned_completely.1 stray
  have hpaths : stray.paths = ["room.name".toList, "\x7bx.y.z".toList, "room.".toList] := by decide
  refine ⟨by decide, ?_, htrims _ List.mem_cons_self, hascending, ?_, ?_⟩
  . rw [hplaceholders, hpaths]
    simp
  . exact (hrelations "room").2 ⟨"room.".toList, by decide, [], by decide, by decide⟩
  . exact (hrelations "\x7bx.y").2 ⟨"\x7bx.y.z".toList, by decide, ['z'], by decide, by decide⟩

end Template

end ObjectStore
