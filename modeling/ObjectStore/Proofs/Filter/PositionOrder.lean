import ObjectStore.Proofs.Filter.LineColumn
import ObjectStore.Proofs.Filter.SourcePlaces

/-!
This module proves that a line and a column identify a place between the characters of a text. They count
the line feeds in front of the place and the characters behind the last one of these. Every character takes
the position further, to the next column or to the next line, so that places are in the order of their
positions. There is no place beyond the end, and the position stays what it is there.
-/

namespace ObjectStore

namespace Position

/-- The first position is on an earlier line, or in an earlier column of the same line. -/
def Before (p q : Position) : Prop :=
  p.line < q.line ∨ p.line = q.line ∧ p.column < q.column

instance (p q : Position) : Decidable (p.Before q) :=
  inferInstanceAs (Decidable (_ ∨ _))

/-- The position counts the line feeds in a text, and the characters in what follows the last of them. -/
structure Counts (p : Position) (front : List Char) : Prop where
  line_eq : p.line = 1 + front.count '\n'
  column_eq : ∃ ended current, front = ended ++ current
    ∧ (ended = [] ∨ ended.getLast? = some '\n') ∧ '\n' ∉ current ∧ p.column = 1 + current.length

theorem Before.trans {p q r : Position} (h : p.Before q) (h' : q.Before r) : p.Before r := by
  unfold Before at *
  omega

theorem Before.irrefl (p : Position) : ¬ p.Before p := by
  unfold Before
  omega

theorem Before.asymm {p q : Position} (h : p.Before q) : ¬ q.Before p :=
  fun h' => Before.irrefl p (h.trans h')

theorem before_after (p : Position) (c : Char) : p.Before (p.after c) := by
  unfold after
  split
  . exact .inl (Nat.lt_succ_self p.line)
  . exact .inr ⟨rfl, Nat.lt_succ_self p.column⟩

theorem before_foldl_after {cs : List Char} (h : cs ≠ []) (p : Position)
    : p.Before (cs.foldl after p) := by
  induction cs generalizing p with
  | nil => contradiction
  | cons c cs ih =>
    rw [List.foldl_cons]
    by_cases hcs : cs = []
    . subst hcs
      exact before_after p c
    . exact (before_after p c).trans (ih hcs (p.after c))

/-- Beyond the end of a text, all its characters have been passed. -/
theorem ofOffset_go_of_le {cs : List Char} {i offset : Nat} (h : i + byteLength cs ≤ offset)
    (p : Position) : ofOffset.go offset cs i p = cs.foldl after p := by
  induction cs generalizing i p with
  | nil => rfl
  | cons c cs ih =>
    rw [byteLength_cons] at h
    have hbefore : ¬ offset ≤ i := by
      have := c.utf8Size_pos
      omega
    rw [ofOffset.go, if_neg hbefore, ih (by omega)]
    rfl

theorem counts_foldl_after (front : List Char) : (front.foldl after first).Counts front := by
  rw [foldl_after]
  obtain ⟨ended, hfront, hended⟩ := lineTail_split front
  exact ⟨Nat.add_comm _ 1, ended, lineTail front, hfront, hended, feed_not_mem_lineTail front,
    Nat.add_comm _ 1⟩

theorem exists_append_of_boundary_lt {source : String} {a b : Nat} (ha : IsBoundary source a)
    (hb : IsBoundary source b) (hlt : a < b)
    : ∃ front text back, source.toList = front ++ (text ++ back) ∧ text ≠ []
        ∧ byteLength front = a ∧ byteLength (front ++ text) = b := by
  obtain ⟨front, back, hsource, rfl⟩ := ha
  obtain ⟨front', back', hsource', rfl⟩ := hb
  -- Of two texts that the source begins with, the one with fewer bytes begins the other.
  have hfront : front <+: source.toList := ⟨back, hsource.symm⟩
  have hfront' : front' <+: source.toList := ⟨back', hsource'.symm⟩
  rcases List.prefix_or_prefix_of_prefix hfront hfront' with ⟨text, rfl⟩ | ⟨text, rfl⟩
  . refine ⟨front, text, back', by rw [hsource', List.append_assoc], ?_, rfl, rfl⟩
    rintro rfl
    simp at hlt
  . rw [byteLength_append] at hlt
    omega

theorem before_of_boundary_lt {source : String} {a b : Nat} (ha : IsBoundary source a)
    (hb : IsBoundary source b) (hlt : a < b)
    : (ofOffset source.toList a).Before (ofOffset source.toList b) := by
  obtain ⟨front, text, back, hsource, htext, rfl, rfl⟩ := exists_append_of_boundary_lt ha hb hlt
  rw [hsource, ofOffset_eq_foldl, ← List.append_assoc, ofOffset_eq_foldl, List.foldl_append]
  exact before_foldl_after htext _

/-- The position of a boundary counts what is in front of it, boundaries are in the order of their
positions, and beyond the end there is only the position of the end. -/
theorem boundaries_identified (source : String)
    : (∀ front back, source.toList = front ++ back
        → (ofOffset source.toList (byteLength front)).Counts front)
      ∧ (∀ a b, IsBoundary source a → IsBoundary source b
        → ((ofOffset source.toList a).Before (ofOffset source.toList b) ↔ a < b))
      ∧ ∀ offset, source.utf8ByteSize ≤ offset
        → ofOffset source.toList offset = ofOffset source.toList source.utf8ByteSize := by
  refine ⟨?_, ?_, ?_⟩
  . intro front back hsource
    rw [hsource, ofOffset_eq_foldl]
    exact counts_foldl_after front
  . intro a b ha hb
    refine ⟨?_, before_of_boundary_lt ha hb⟩
    intro hbefore
    rcases Nat.lt_trichotomy a b with hlt | rfl | hlt
    . exact hlt
    . exact absurd hbefore (Before.irrefl _)
    . exact absurd hbefore (before_of_boundary_lt hb ha hlt).asymm
  . intro offset hoffset
    have hsize := byteLength_toList source
    unfold ofOffset
    rw [ofOffset_go_of_le (by omega), ofOffset_go_of_le (by omega)]

/-- Wide characters on two lines. -/
theorem boundaries_identified_of_wide
    : "é\nß😀".toList = ['é', '\n', 'ß'] ++ ['😀'] ∧ byteLength ['é', '\n', 'ß'] = 5
        ∧ ofOffset "é\nß😀".toList 5 = ⟨2, 2⟩
        ∧ Counts ⟨2, 2⟩ ['é', '\n', 'ß']
        ∧ IsBoundary "é\nß😀" 2 ∧ IsBoundary "é\nß😀" 5
        ∧ (ofOffset "é\nß😀".toList 2).Before ⟨2, 2⟩
        ∧ "é\nß😀".utf8ByteSize ≤ 12
        ∧ ofOffset "é\nß😀".toList 12 = ofOffset "é\nß😀".toList "é\nß😀".utf8ByteSize := by
  obtain ⟨hcounts, horder, hend⟩ := boundaries_identified "é\nß😀"
  have hposition : ofOffset "é\nß😀".toList 5 = ⟨2, 2⟩ := by decide
  have hfirst : IsBoundary "é\nß😀" 2 := ⟨['é'], ['\n', 'ß', '😀'], by decide, by decide⟩
  have hsecond : IsBoundary "é\nß😀" 5 := ⟨['é', '\n', 'ß'], ['😀'], by decide, by decide⟩
  have hbefore := (horder 2 5 hfirst hsecond).2 (by decide)
  have hcounts' := hcounts ['é', '\n', 'ß'] ['😀'] (by decide)
  rw [hposition] at hbefore
  exact ⟨by decide, by decide, hposition, hposition ▸ hcounts', hfirst, hsecond, hbefore, by decide,
    hend 12 (by decide)⟩

/-- A line feed is on the line that it ends. -/
example : (ofOffset "ab\nc".toList 2).Before (ofOffset "ab\nc".toList 3) := by decide

end Position

end ObjectStore
