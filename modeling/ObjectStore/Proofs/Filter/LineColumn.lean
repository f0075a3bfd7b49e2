import Mathlib.Data.List.DropRight
import ObjectStore.Filter.Snippet
import ObjectStore.Proofs.Filter.Layout

/-!
This module proves what lines and columns count. A text is cut in two, and the position of the cut counts
the line feeds in front and the characters behind the last one of them. The line with that number is what
follows the last line feed in front of the cut, together with what comes up to the next end of a line.
-/

namespace ObjectStore

/-- What follows the last line feed. -/
def lineTail (cs : List Char) : List Char :=
  cs.rtakeWhile (· != '\n')

/-- What comes before the first end of a line. -/
def lineHead : List Char → List Char
  | [] => []
  | '\n' :: _ => []
  | '\r' :: '\n' :: _ => []
  | c :: cs => c :: lineHead cs

theorem lineTail_concat (cs : List Char) (c : Char)
    : lineTail (cs ++ [c]) = if c = '\n' then [] else lineTail cs ++ [c] := by
  unfold lineTail
  rw [List.rtakeWhile_concat]
  simp only [bne_iff_ne, ne_eq, ite_not]

theorem lineTail_suffix (cs : List Char) : lineTail cs <:+ cs :=
  List.rtakeWhile_suffix _ _

theorem lineTail_split (front : List Char)
    : ∃ ended, front = ended ++ lineTail front ∧ (ended = [] ∨ ended.getLast? = some '\n') := by
  refine ⟨front.rdropWhile (· != '\n'), List.rdropWhile_append_rtakeWhile.symm, ?_⟩
  by_cases hended : front.rdropWhile (· != '\n') = []
  . exact .inl hended
  . have hlast := List.rdropWhile_last_not _ front hended
    rw [bne_iff_ne, not_not] at hlast
    exact .inr (by rw [List.getLast?_eq_some_getLast hended, hlast])

theorem feed_not_mem_lineTail (front : List Char) : '\n' ∉ lineTail front := by
  intro hfeed
  have hne := List.mem_rtakeWhile_imp hfeed
  exact absurd hne (by decide)

theorem lineHead_begins (cs : List Char) : lineHead cs <+: cs := by
  fun_induction lineHead cs with
  | case1 => exact List.prefix_rfl
  | case2 | case3 => exact List.nil_prefix
  | case4 c cs _ _ ih => exact List.cons_prefix_cons.2 ⟨rfl, ih⟩

namespace Position

theorem ofOffset_go (front back : List Char) (i : Nat) (p : Position)
    : ofOffset.go (i + byteLength front) (front ++ back) i p = front.foldl after p := by
  induction front generalizing i p with
  | nil =>
    unfold ofOffset.go
    cases back with
    | nil => rfl
    | cons => exact if_pos (Nat.le_refl i)
  | cons c front ih =>
    have hbefore : ¬ i + (c.utf8Size + byteLength front) ≤ i := by
      have := c.utf8Size_pos
      omega
    rw [List.cons_append, byteLength_cons, ofOffset.go, if_neg hbefore, ← Nat.add_assoc, ih]
    rfl

theorem foldl_after (cs : List Char)
    : cs.foldl after first = ⟨cs.count '\n' + 1, (lineTail cs).length + 1⟩ := by
  induction cs using List.reverseRecOn with
  | nil => rfl
  | append_singleton cs c ih =>
    rw [List.foldl_concat, ih, after, lineTail_concat, List.count_append, List.count_singleton]
    by_cases hfeed : c = '\n'
    . simp [hfeed]
    . simp [hfeed]

/-- The position of a cut is where the characters in front of it lead from the first one. -/
theorem ofOffset_eq_foldl (front back : List Char)
    : ofOffset (front ++ back) (byteLength front) = front.foldl after first := by
  have hgo := ofOffset_go front back 0 first
  rwa [Nat.zero_add] at hgo

/-- The position of a cut counts what is in front of it. -/
theorem ofOffset_byteLength (front back : List Char)
    : ofOffset (front ++ back) (byteLength front)
      = ⟨front.count '\n' + 1, (lineTail front).length + 1⟩ := by
  rw [ofOffset_eq_foldl, foldl_after]

end Position

/-! The line of a cut. -/

namespace Lines

/-- A line that has not ended, with its last character first, and one more character. -/
def extend (current : List Char) (c : Char) : List Char :=
  if c = '\n' then [] else c :: current

theorem foldl_extend (cs : List Char) : cs.foldl extend [] = (lineTail cs).reverse := by
  induction cs using List.reverseRecOn with
  | nil => rfl
  | append_singleton cs c ih =>
    rw [List.foldl_concat, ih, extend, lineTail_concat]
    by_cases hfeed : c = '\n'
    . rw [if_pos hfeed, if_pos hfeed, List.reverse_nil]
    . rw [if_neg hfeed, if_neg hfeed, List.reverse_concat]

/-- A line feed ends a line, whose last character is left out only if it is a carriage return. -/
theorem go_feed (current cs : List Char)
    : ∃ line, lines.go current ('\n' :: cs) = line :: lines.go [] cs
        ∧ (current.head? ≠ some '\r' → line = current.reverse) := by
  refine ⟨_, rfl, ?_⟩
  intro hreturn
  split
  . exact absurd rfl hreturn
  . rfl

theorem go_char {c : Char} (hfeed : c ≠ '\n') (current cs : List Char)
    : lines.go current (c :: cs) = lines.go (c :: current) cs := by
  rw [lines.go]
  exact hfeed

/-- As many lines as there are line feeds in front have ended at a cut. -/
theorem getElem?_go (front back current : List Char)
    : (lines.go current (front ++ back))[front.count '\n']?
      = (lines.go (front.foldl extend current) back)[0]? := by
  induction front generalizing current with
  | nil => rfl
  | cons c front ih =>
    rw [List.cons_append, List.foldl_cons, ← ih]
    by_cases hfeed : c = '\n'
    . obtain ⟨line, hgo, -⟩ := go_feed current (front ++ back)
      rw [hfeed, List.count_cons_self, hgo, List.getElem?_cons_succ]
      rfl
    . rw [List.count_cons_of_ne hfeed, extend, if_neg hfeed, go_char hfeed]

/-- The first line goes on to the next end of a line, unless that end is cut apart. -/
theorem eq_of_getElem?_go {current back line : List Char}
    (hline : (lines.go current back)[0]? = some line)
    (hwhole : current.head? = some '\r' → back.head? ≠ some '\n')
    : line = current.reverse ++ lineHead back := by
  fun_induction lineHead back generalizing current with
  | case1 =>
    rw [lines.go] at hline
    split at hline
    . cases hline
    . rw [List.append_nil]
      exact (Option.some.inj hline).symm
  | case2 cs =>
    obtain ⟨line', hgo, hline'⟩ := go_feed current cs
    have hsame : line' = line := by
      rw [hgo] at hline
      exact Option.some.inj hline
    rw [← hsame, List.append_nil]
    exact hline' fun hreturn => hwhole hreturn rfl
  | case3 cs =>
    rw [go_char (by decide)] at hline
    rw [List.append_nil]
    exact (Option.some.inj hline).symm
  | case4 c cs hfeed hreturn ih =>
    rw [go_char hfeed] at hline
    rw [ih hline ?_, List.reverse_cons, List.append_assoc]
    . rfl
    . intro hc hcs
      obtain ⟨rest, rfl⟩ := List.head?_eq_some_iff.1 hcs
      exact hreturn rest (Option.some.inj hc) rfl

end Lines

/-- The line of a cut that does not stand within the end of a line. -/
theorem eq_of_getElem?_lines {front back line : List Char}
    (hline : (lines (front ++ back))[front.count '\n']? = some line)
    (hwhole : front.getLast? = some '\r' → back.head? ≠ some '\n')
    : line = lineTail front ++ lineHead back := by
  rw [lines, Lines.getElem?_go, Lines.foldl_extend] at hline
  have hline' := Lines.eq_of_getElem?_go hline ?_
  . rwa [List.reverse_reverse] at hline'
  . intro hlast
    obtain ⟨before, hbefore⟩ := lineTail_suffix front
    rw [List.head?_reverse] at hlast
    rw [← hbefore, List.getLast?_append, hlast] at hwhole
    exact hwhole rfl

end ObjectStore
