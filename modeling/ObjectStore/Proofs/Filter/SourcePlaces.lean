import ObjectStore.Proofs.Filter.Formation
import ObjectStore.Proofs.Filter.Placeholders

/-!
This module proves that the places in conditions and errors are right. The fields, operators and
placeholders of a condition have the places of the answers that the condition is formed by, in their
order, so that every part of the condition runs from its first field to its last placeholder. An error
is placed where reading stops or at a field or a placeholder, and always within the text.
-/

namespace ObjectStore

/-- The text stands at the place. -/
def Shows (source : String) (span : Span) (text : List Char) : Prop :=
  ∃ before behind, source.toList = before ++ (text ++ behind)
    ∧ span = ⟨byteLength before, byteLength before + byteLength text⟩

/-- No character is cut apart at the byte. -/
def IsBoundary (source : String) (byte : Nat) : Prop :=
  ∃ before behind, source.toList = before ++ behind ∧ byteLength before = byte

/-- The place can be cut out of the source. -/
structure Span.Within (span : Span) (source : String) : Prop where
  start_le_stop : span.start ≤ span.stop
  stop_le : span.stop ≤ source.utf8ByteSize
  start_boundary : IsBoundary source span.start
  stop_boundary : IsBoundary source span.stop

namespace Comparison

def spans (x : Comparison) : List Span :=
  [x.field.span, x.op.span, x.placeholder.span]

/-- The answers that a comparison is formed by. -/
def answers (x : Comparison) : List LexAnswer :=
  [.ok ⟨.identifier x.field.value, x.field.span⟩, .ok ⟨.operator x.op.value, x.op.span⟩,
    .ok ⟨.placeholder, x.placeholder.span⟩]

/-- The places in the comparisons are not empty, and each is behind those in front of it. -/
structure InOrder (xs : List Comparison) : Prop where
  pairwise : (xs.flatMap spans).Pairwise fun first second => first.stop ≤ second.start
  start_lt_stop : ∀ span ∈ xs.flatMap spans, span.start < span.stop

/-- The place runs from the first field to the last placeholder. -/
def RunsOver (xs : List Comparison) (span : Span) : Prop :=
  ∃ first last, xs.head? = some first ∧ xs.getLast? = some last
    ∧ span = ⟨first.field.span.start, last.placeholder.span.stop⟩

end Comparison

namespace Condition

open Comparison

/-- A condition is another one or a part of it at any depth. -/
inductive PartOf : Condition → Condition → Prop where
  | self (c : Condition) : PartOf c c
  | all {c part : Condition} {parts : List Condition} (hpart : part ∈ parts) (h : PartOf c part)
    : PartOf c (all parts)
  | any {c part : Condition} {parts : List Condition} (hpart : part ∈ parts) (h : PartOf c part)
    : PartOf c (any parts)

/-- The places in a condition show what it has been read from. -/
structure WellPlaced (source : String) (c : Condition) : Prop where
  field : ∀ x ∈ c.leaves, Shows source x.field.span x.field.value.toList
  op : ∀ x ∈ c.leaves, ∃ text,
    Shows source x.op.span text ∧ Spaced (Token.operator x.op.value).words text
  placeholder : ∀ x ∈ c.leaves, Shows source x.placeholder.span ['?']
  in_order : InOrder c.leaves
  runs : ∀ part, PartOf part c → RunsOver part.leaves part.span

end Condition

theorem Shows.within {source : String} {span : Span} {text : List Char} (h : Shows source span text)
    : span.Within source := by
  obtain ⟨before, behind, hsource, rfl⟩ := h
  constructor
  . exact Nat.le_add_right _ _
  . rw [← byteLength_toList, hsource, byteLength_append, byteLength_append]
    dsimp only
    omega
  . exact ⟨before, text ++ behind, hsource, rfl⟩
  . exact ⟨before ++ text, behind, by rw [hsource, List.append_assoc], byteLength_append before text⟩

/-! The places of comparisons and parts. -/

namespace Comparison

variable {xs ys : List Comparison} {a b : Span}

theorem InOrder.sublist (h : InOrder ys) (hsub : xs.Sublist ys) : InOrder xs := by
  have hspans := hsub.flatMap spans
  exact ⟨h.pairwise.sublist hspans, fun span hspan => h.start_lt_stop span (hspans.mem hspan)⟩

theorem RunsOver.append (h : RunsOver xs a) (h' : RunsOver ys b) (hordered : InOrder (xs ++ ys))
    : RunsOver (xs ++ ys) (a.merge b) := by
  obtain ⟨first, last, hfirst, hlast, rfl⟩ := h
  obtain ⟨first', last', hfirst', hlast', rfl⟩ := h'
  have hspan : ∀ x ∈ xs ++ ys, ∀ span ∈ x.spans, span.start < span.stop := by
    intro x hx span hspan
    exact hordered.start_lt_stop span (List.mem_flatMap.2 ⟨x, hx, hspan⟩)
  have hbehind : ∀ x ∈ xs, ∀ y ∈ ys, x.field.span.stop ≤ y.field.span.start
      ∧ x.placeholder.span.stop ≤ y.placeholder.span.start := by
    have hpairwise := hordered.pairwise
    rw [List.flatMap_append, List.pairwise_append] at hpairwise
    intro x hx y hy
    constructor
    . exact hpairwise.2.2 _ (List.mem_flatMap.2 ⟨x, hx, by simp [spans]⟩) _
        (List.mem_flatMap.2 ⟨y, hy, by simp [spans]⟩)
    . exact hpairwise.2.2 _ (List.mem_flatMap.2 ⟨x, hx, by simp [spans]⟩) _
        (List.mem_flatMap.2 ⟨y, hy, by simp [spans]⟩)
  have hfirst_mem := List.mem_of_mem_head? hfirst
  have hfirst_mem' := List.mem_of_mem_head? hfirst'
  have hlast_mem := List.mem_of_getLast? hlast
  have hlast_mem' := List.mem_of_getLast? hlast'
  refine ⟨first, last', ?_, ?_, Span.merge_eq ?_ ?_⟩
  . rw [List.head?_append, hfirst]
    rfl
  . rw [List.getLast?_append, hlast']
    rfl
  . have hstart := hspan first (List.mem_append_left ys hfirst_mem) first.field.span (by simp [spans])
    have hle := (hbehind first hfirst_mem first' hfirst_mem').1
    dsimp only
    omega
  . have hstart := hspan last' (List.mem_append_right xs hlast_mem') last'.placeholder.span
      (by simp [spans])
    have hle := (hbehind last hlast_mem last' hlast_mem').2
    dsimp only
    omega

theorem InOrder.runsOver_singleton {x : Comparison} (h : InOrder [x])
    : RunsOver [x] (x.field.span.merge x.placeholder.span) := by
  refine ⟨x, x, rfl, rfl, ?_⟩
  have hfield := h.start_lt_stop x.field.span (by simp [spans])
  have hplaceholder := h.start_lt_stop x.placeholder.span (by simp [spans])
  have hpairwise := h.pairwise
  simp only [List.flatMap_singleton, spans, List.pairwise_cons, List.forall_mem_cons] at hpairwise
  have hle := hpairwise.1.2.1
  exact Span.merge_eq (by omega) (by omega)

end Comparison

namespace Condition

open Comparison

theorem partLeaves_append (parts parts' : List Condition)
    : partLeaves (parts ++ parts') = partLeaves parts ++ partLeaves parts' := by
  induction parts with
  | nil => rfl
  | cons part parts ih => rw [List.cons_append, partLeaves, ih, partLeaves, List.append_assoc]

theorem leaves_andAlso (left right : Condition)
    : (left.andAlso right).leaves = left.leaves ++ right.leaves := by
  cases left <;> simp [andAlso, leaves, partLeaves, partLeaves_append]

theorem leaves_orElse (left right : Condition)
    : (left.orElse right).leaves = left.leaves ++ right.leaves := by
  cases left <;> simp [orElse, leaves, partLeaves, partLeaves_append]

theorem leaves_sublist_partLeaves {part : Condition} {parts : List Condition} (h : part ∈ parts)
    : part.leaves.Sublist (partLeaves parts) := by
  obtain ⟨front, back, rfl⟩ := List.append_of_mem h
  rw [partLeaves_append, partLeaves]
  exact (List.sublist_append_left _ _).trans (List.sublist_append_right _ _)

theorem runsOver_spans {parts : List Condition} (hne : parts ≠ [])
    (hparts : ∀ part ∈ parts, InOrder part.leaves → RunsOver part.leaves part.span)
    (hordered : InOrder (partLeaves parts))
    : ∃ span, spans parts = some span ∧ RunsOver (partLeaves parts) span := by
  induction parts with
  | nil => exact absurd rfl hne
  | cons part parts ih =>
    rw [List.forall_mem_cons] at hparts
    rw [partLeaves] at hordered
    have hpart := hparts.1 (hordered.sublist (List.sublist_append_left _ _))
    cases parts with
    | nil =>
      rw [partLeaves, partLeaves, List.append_nil]
      exact ⟨part.span, rfl, hpart⟩
    | cons second rest =>
      obtain ⟨span, hspan, hrest⟩ := ih (List.cons_ne_nil _ _) hparts.2
        (hordered.sublist (List.sublist_append_right _ _))
      refine ⟨part.span.merge span, ?_, ?_⟩
      . rw [spans, hspan]
      . rw [partLeaves]
        exact hpart.append hrest hordered

/-- The place of a condition is that of its comparisons if it has parts everywhere. -/
theorem Flat.runsOver {c : Condition} (h : c.Flat) (hordered : InOrder c.leaves)
    : RunsOver c.leaves c.span := by
  induction h with
  | comparison => exact hordered.runsOver_singleton
  | all _ _ ih | any _ _ ih =>
    obtain ⟨span, hspan, hruns⟩ := runsOver_spans (List.cons_ne_nil _ _) ih hordered
    unfold Condition.span
    rw [hspan]
    exact hruns

theorem PartOf.leaves_sublist {part c : Condition} (h : PartOf part c)
    : part.leaves.Sublist c.leaves := by
  induction h with
  | self => exact List.Sublist.refl _
  | all hpart _ ih | any hpart _ ih => exact ih.trans (leaves_sublist_partLeaves hpart)

theorem PartOf.flat {part c : Condition} (h : PartOf part c) (hflat : c.Flat) : part.Flat := by
  induction h with
  | self => exact hflat
  | all hpart _ ih =>
    cases hflat with
    | all _ hparts => exact ih (hparts _ hpart)
  | any hpart _ ih =>
    cases hflat with
    | any _ hparts => exact ih (hparts _ hpart)

/-- The comparisons of a condition have their places from the answers that form it. -/
theorem FormedBy.answers_sublist {answers : List LexAnswer} {c : Condition} (h : FormedBy answers c)
    : (c.leaves.flatMap Comparison.answers).Sublist answers := by
  induction h with
  | comparison => exact List.Sublist.refl _
  | group _ ih => exact (ih.trans (List.sublist_append_left _ _)).cons _
  | andAlso _ _ ih ih' =>
    rw [leaves_andAlso, List.flatMap_append]
    exact ih.append (ih'.cons _)
  | orElse _ _ ih ih' =>
    rw [leaves_orElse, List.flatMap_append]
    exact ih.append (ih'.cons _)

section

variable {source : String} {c : Condition}

theorem answers_sublist_of_parse (h : parse source = .ok c)
    : (c.leaves.flatMap Comparison.answers).Sublist (lexAnswers source) :=
  (formedBy_of_parse h).answers_sublist

theorem mem_lexAnswers_of_parse (h : parse source = .ok c) {x : Comparison} (hx : x ∈ c.leaves)
    : ∀ answer ∈ x.answers, answer ∈ lexAnswers source := by
  intro answer hanswer
  exact (answers_sublist_of_parse h).mem (List.mem_flatMap.2 ⟨x, hx, hanswer⟩)

theorem flatMap_spans (xs : List Comparison)
    : xs.flatMap Comparison.spans = (xs.flatMap Comparison.answers).map LexAnswer.span := by
  rw [List.map_flatMap]
  rfl

/-- A wide character of a text that is a condition would be part of a token or a fault. -/
theorem allAscii_of_parse (h : parse source = .ok c) : AllAscii source.toList :=
  (stationed_lexAnswers source).allAscii (formedBy_of_parse h).isPlain

theorem inOrder_of_parse (h : parse source = .ok c) : InOrder c.leaves := by
  have hstationed := stationed_lexAnswers source
  have hsub := answers_sublist_of_parse h
  constructor
  . rw [flatMap_spans, List.pairwise_map]
    exact hstationed.pairwise.sublist hsub
  . rw [flatMap_spans, List.forall_mem_map]
    intro answer hanswer
    exact hstationed.start_lt_stop (hsub.mem hanswer)

/-- A token of a text that is a condition stands at its place. -/
theorem shows_of_parse (h : parse source = .ok c) {token : SpannedToken}
    (htoken : .ok token ∈ lexAnswers source)
    : ∃ text, Shows source token.span text ∧ Spaced token.value.words text := by
  obtain ⟨tokens, htokens, -⟩ := derivation_of_parse h
  have hlaid := laid_of_tokenize htokens
  rw [tokenize_eq_ok.1 htokens] at htoken
  obtain ⟨before, text, behind, hsource, -, hspan, value, hvalue, hwritten⟩ := hlaid.place htoken
  cases hvalue
  rw [Nat.zero_add] at hspan
  exact ⟨text, ⟨before, behind, hsource, hspan⟩, hwritten.spaced⟩

theorem eq_of_spaced_singleton {word : String} {text : List Char} (h : Spaced [word] text)
    : text = word.toList := by
  cases h with
  | last => rfl

theorem wellPlaced_of_parse (h : parse source = .ok c) : WellPlaced source c := by
  obtain ⟨st, htakes⟩ := ofAnswers_eq_ok.1 h
  have hflat := flat_of_takes_expr htakes
  have hordered := inOrder_of_parse h
  constructor
  . intro x hx
    obtain ⟨text, hshows, hspaced⟩ := shows_of_parse h (mem_lexAnswers_of_parse h hx
      (.ok ⟨.identifier x.field.value, x.field.span⟩) (by simp [Comparison.answers]))
    rwa [eq_of_spaced_singleton hspaced] at hshows
  . intro x hx
    exact shows_of_parse h (mem_lexAnswers_of_parse h hx (.ok ⟨.operator x.op.value, x.op.span⟩)
      (by simp [Comparison.answers]))
  . intro x hx
    obtain ⟨text, hshows, hspaced⟩ := shows_of_parse h (mem_lexAnswers_of_parse h hx
      (.ok ⟨.placeholder, x.placeholder.span⟩) (by simp [Comparison.answers]))
    have htext : text = "?".toList := eq_of_spaced_singleton hspaced
    have hmark : "?".toList = ['?'] := by decide
    rwa [htext, hmark] at hshows
  . exact hordered
  . intro part hpart
    exact (hpart.flat hflat).runsOver (hordered.sublist hpart.leaves_sublist)

/-! The places of errors. -/

/-- What cannot be looked up stands where reading could have stopped too. -/
theorem stopsAt_of_compile (h : parse source = .ok c) {scope : ObjectType} {args : List Value}
    {e : CompileError} (hcompile : c.compile scope args = .error e)
    : StopsAt source.utf8ByteSize (lexAnswers source) e.span := by
  obtain ⟨front, x, back, hleaves, -, hfails⟩ := mapM_eq_error.1 (compile_eq_error.1 hcompile)
  have hx : x ∈ c.leaves := by
    rw [hleaves]
    simp
  obtain ⟨answer, hanswer, hspan⟩ : ∃ answer ∈ x.answers, e.span = answer.span := by
    obtain hspan | hspan := (Comparison.compile_eq_error.1 hfails).span
    . exact ⟨.ok ⟨.identifier x.field.value, x.field.span⟩, by simp [Comparison.answers], hspan⟩
    . exact ⟨.ok ⟨.placeholder, x.placeholder.span⟩, by simp [Comparison.answers], hspan⟩
  have hplain := (formedBy_of_parse h).isPlain
  obtain ⟨before, behind, hsplit⟩ := List.append_of_mem (mem_lexAnswers_of_parse h hx answer hanswer)
  rw [hsplit, List.forall_mem_append] at hplain
  rw [hsplit, hspan]
  exact .there hplain.1

end

/-- Where reading stops in a source, the text in front is written in ASCII, and no line break of two
characters is cut apart. -/
theorem StopsAt.place {source : String} {span : Span}
    (h : StopsAt source.utf8ByteSize (lexAnswers source) span)
    : ∃ before text behind, source.toList = before ++ (text ++ behind)
        ∧ span = ⟨byteLength before, byteLength before + byteLength text⟩
        ∧ AllAscii before
        ∧ (before.getLast? = some '\r' → (text ++ behind).head? ≠ some '\n') := by
  have hstationed := stationed_lexAnswers source
  have hsize := byteLength_toList source
  generalize lexAnswers source = answers at h hstationed
  cases h with
  | there hfront =>
    obtain ⟨before, text, behind, hsource, htext, hvisible, hspan, -, hascii, -⟩ := hstationed.place
    rw [Nat.zero_add] at hspan
    refine ⟨before, text, behind, hsource, hspan, hascii hfront, ?_⟩
    intro _ hhead
    rw [List.head?_append_of_ne_nil _ htext] at hhead
    cases hvisible _ hhead
  | atEnd hfront =>
    refine ⟨source.toList, [], [], by simp, by simp [hsize], hstationed.allAscii hfront, ?_⟩
    intro _
    exact nofun
  | behind hfront hanswer =>
    obtain ⟨before, text, behind, hsource, htext, -, hspan, hplain, hascii, -⟩ := hstationed.place
    have hlength : source.utf8ByteSize = byteLength (before ++ text) + byteLength behind := by
      rw [← hsize, hsource, ← List.append_assoc, byteLength_append]
    refine ⟨before ++ text, behind, [], by simp [hsource], ?_, ?_, ?_⟩
    . rw [hspan, hlength, byteLength_append, Nat.zero_add]
    . exact allAscii_append.2 ⟨hascii hfront, (hplain hanswer).ascii⟩
    . intro hlast
      rw [List.getLast?_append_of_ne_nil _ htext] at hlast
      cases (hplain hanswer).ends _ hlast

theorem StopsAt.within {source : String} {span : Span}
    (h : StopsAt source.utf8ByteSize (lexAnswers source) span) : span.Within source := by
  obtain ⟨before, text, behind, hsource, hspan, -⟩ := h.place
  exact Shows.within ⟨before, behind, hsource, hspan⟩

/-- The places in a condition that was read from a source are right, and so is the place of every error
of reading or of looking up names and arguments. -/
theorem places_of_parse (source : String)
    : (∀ c, parse source = .ok c
        → WellPlaced source c
          ∧ ∀ scope args e, c.compile scope args = .error e → e.span.Within source)
        ∧
      ∀ e, parse source = .error e → e.span.Within source := by
  constructor
  . intro c hc
    refine ⟨wellPlaced_of_parse hc, ?_⟩
    intro scope args e he
    exact (stopsAt_of_compile hc he).within
  . intro e he
    exact (stopsAt_of_parse he).within

def nestedFilter : Condition :=
  .all [
    .any [
      .comparison ⟨"not", ⟨1, 4⟩⟩ ⟨.eq, ⟨5, 6⟩⟩ ⟨0, ⟨6, 7⟩⟩,
      .comparison ⟨"b", ⟨11, 12⟩⟩ ⟨.notIn, ⟨13, 20⟩⟩ ⟨1, ⟨21, 22⟩⟩],
    .comparison ⟨"c", ⟨28, 29⟩⟩ ⟨.ge, ⟨29, 31⟩⟩ ⟨2, ⟨31, 32⟩⟩]

/-- A condition with an operator of two words, whose names are unknown, and a quotation that does not
end. -/
theorem places_of_parse_of_nested
    : parse "(not =? or b not  in ?) and c>=?" = .ok nestedFilter
        ∧ WellPlaced "(not =? or b not  in ?) and c>=?" nestedFilter
        ∧ nestedFilter.span = ⟨1, 32⟩
        ∧ nestedFilter.compile (ObjectType.ofName "box") []
            = .error ⟨.unknownAttribute "box" "not", ⟨1, 4⟩⟩
        ∧ (⟨1, 4⟩ : Span).Within "(not =? or b not  in ?) and c>=?"
        ∧ parse "a = 'é" = .error ⟨.unexpectedText "'é", ⟨4, 7⟩⟩
        ∧ (⟨4, 7⟩ : Span).Within "a = 'é" := by
  have hparse : parse "(not =? or b not  in ?) and c>=?" = .ok nestedFilter := by cbv
  have hcompile : nestedFilter.compile (ObjectType.ofName "box") []
      = .error ⟨.unknownAttribute "box" "not", ⟨1, 4⟩⟩ := by
    cbv
  have herror : parse "a = 'é" = .error ⟨.unexpectedText "'é", ⟨4, 7⟩⟩ := by cbv
  obtain ⟨hplaced, hlookup⟩ := (places_of_parse "(not =? or b not  in ?) and c>=?").1 _ hparse
  exact ⟨hparse, hplaced, by cbv, hcompile, hlookup _ _ _ hcompile, herror,
    (places_of_parse "a = 'é").2 _ herror⟩

end Condition

end ObjectStore
