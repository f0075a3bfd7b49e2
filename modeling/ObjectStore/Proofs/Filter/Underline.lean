import ObjectStore.Proofs.Calendar.Digits
import ObjectStore.Proofs.Filter.LineColumn
import ObjectStore.Proofs.Filter.SourcePlaces

/-!
This module proves where the mark of an error stands. All characters in front of the error are in ASCII, so
that the caret is below the first character of the error. The tildes behind the caret are counted in bytes,
and are right if and only if the characters above them are in ASCII too.
-/

namespace ObjectStore

/-- A row of a text and a mark in the row below: a caret behind a margin, and tildes behind the caret. -/
structure Mark where
  row : List Char
  margin : List Char
  tildes : Nat

/-- What is in front of a line where it is shown. -/
def gutter (number : Nat) : List Char :=
  padLeft 3 (Decimal.digits number) ++ ['|', ' ']

namespace Mark

def rows (m : Mark) : List Char :=
  m.row ++ '\n' :: m.margin ++ '^' :: List.replicate m.tildes '~' ++ ['\n']

/-- The row has the line on which a text is cut in two, and the caret is below the first character behind
the cut, or directly behind the row if the line ends at the cut. -/
structure PointsAt (m : Mark) (number : Nat) (front back : List Char) : Prop where
  row_eq : m.row = gutter number ++ lineTail front ++ lineHead back
  length_margin : m.margin.length = (gutter number ++ lineTail front).length

/-- The last tilde is not behind the last character of the row, and the caret and the tildes are no more
than the characters of the text. -/
structure StaysBelow (m : Mark) (text : List Char) : Prop where
  in_row : m.tildes = 0 ∨ m.margin.length + m.tildes < m.row.length
  in_text : text ≠ [] → m.tildes + 1 ≤ text.length

instance (m : Mark) (text : List Char) : Decidable (m.StaysBelow text) :=
  decidable_of_iff _ ⟨fun h => ⟨h.1, h.2⟩, fun h => And.intro h.in_row h.in_text⟩

end Mark

/-- The place of an error of reading a filter, or of looking up its names and arguments. -/
inductive ErrorPlace (source : String) : Span → Prop where
  | parse {e : ParseError} (h : Condition.parse source = .error e) : ErrorPlace source e.span
  | compile {c : Condition} {scope : ObjectType} {args : List Value} {e : CompileError}
    (h : Condition.parse source = .ok c) (h' : c.compile scope args = .error e) : ErrorPlace source e.span

theorem ErrorPlace.stopsAt {source : String} {span : Span} (h : ErrorPlace source span)
    : Condition.StopsAt source.utf8ByteSize (lexAnswers source) span := by
  cases h with
  | parse h => exact Condition.stopsAt_of_parse h
  | compile h h' => exact Condition.stopsAt_of_compile h h'

/-- A number of up to three digits leaves the line where longer numbers would move it. -/
theorem length_gutter {number : Nat} (h : number < 1000) : (gutter number).length = 5 := by
  have hdigits := Decimal.length_digits_le (by decide : 0 < 3) h
  unfold gutter padLeft
  simp only [List.length_append, List.length_replicate, List.length_cons, List.length_nil]
  omega

theorem lineTail_allAscii {cs : List Char} (h : AllAscii cs) : AllAscii (lineTail cs) := by
  intro c hc
  exact h c ((lineTail_suffix cs).mem hc)

/-- Behind a front in ASCII, the tildes are one fewer than the bytes of the text, and one fewer than the
bytes of the line's rest. -/
theorem underlineLength_eq {front text rest : List Char} (hascii : AllAscii front) (start : Nat)
    : underlineLength (lineTail front ++ rest) ((lineTail front).length + 1)
        ⟨start, start + byteLength text⟩
      = min (byteLength text - 1) (byteLength rest - 1) := by
  have hfront := (lineTail_allAscii hascii).byteLength_eq
  unfold underlineLength Span.length
  rw [byteLength_append, hfront, Nat.add_sub_cancel_left, Nat.add_sub_add_left]

namespace Mark

theorem staysBelow_iff_lengths {m : Mark} {text rest : List Char}
    (hrow : m.row.length = m.margin.length + rest.length)
    : m.StaysBelow text ↔ (m.tildes = 0 ∨ m.tildes < rest.length)
      ∧ (text.length = 0 ∨ m.tildes + 1 ≤ text.length) := by
  rw [List.length_eq_zero_iff, or_iff_not_imp_left (a := text = [])]
  constructor
  . intro h
    exact ⟨h.in_row.imp_right fun _ => by omega, h.in_text⟩
  . intro h
    exact ⟨h.1.imp_right fun _ => by omega, h.2⟩

/-- The tildes are right if and only if no character above them has more than one byte. -/
theorem staysBelow_iff {m : Mark} {text rest : List Char}
    (hrow : m.row.length = m.margin.length + rest.length)
    (htildes : m.tildes = min (byteLength text - 1) (byteLength rest - 1))
    (hbegins : text <+: rest ∨ rest <+: text)
    : m.StaysBelow text ↔ AllAscii (rest.take text.length) := by
  rw [staysBelow_iff_lengths hrow, htildes, ← byteLength_le_length_iff]
  clear hrow htildes
  obtain ⟨more, rfl⟩ | ⟨more, rfl⟩ := hbegins
  . have hle := length_le_byteLength text
    have hempty : text.length = 0 → byteLength text = 0 := byteLength_eq_zero
    rw [List.take_left, byteLength_append, List.length_append]
    omega
  . have hle := length_le_byteLength rest
    have hempty : rest.length = 0 → byteLength rest = 0 := byteLength_eq_zero
    rw [List.take_of_length_le (by simp), byteLength_append, List.length_append]
    omega

/-- The mark that a place in a line is shown with. -/
def shown (p : Position) (line : List Char) (span : Span) : Mark :=
  ⟨gutter p.line ++ line, [' ', ' ', ' ', '|'] ++ List.replicate p.column ' ',
    underlineLength line p.column span⟩

theorem snippet_eq {source : String} {span : Span} {p : Position} {line : List Char}
    (hp : Position.ofOffset source.toList span.start = p)
    (hline : (lines source.toList)[p.line - 1]? = some line)
    : snippet source span
      = s!"  --> line {p.line}:{p.column}\n" ++ "   |\n" ++ String.ofList (shown p line span).rows := by
  simp only [snippet, hp, hline]
  apply String.toList_inj.1
  simp [shown, rows, gutter]

end Mark

/-- The mark of an error: what the rows are, that the caret stands where the error begins, and when the
tildes stand below the error and nothing else. They always do where a condition could be read. -/
theorem staysBelow_error_iff {source : String} {span : Span} {p : Position} {line : List Char}
    (herror : ErrorPlace source span) (hp : Position.ofOffset source.toList span.start = p)
    (hnumber : p.line < 1000) (hline : (lines source.toList)[p.line - 1]? = some line)
    : ∃ (front text behind : List Char) (m : Mark),
        source.toList = front ++ (text ++ behind)
        ∧ span = ⟨byteLength front, byteLength front + byteLength text⟩
        ∧ snippet source span
          = s!"  --> line {p.line}:{p.column}\n" ++ "   |\n" ++ String.ofList m.rows
        ∧ m.PointsAt p.line front (text ++ behind)
        ∧ (m.StaysBelow text ↔ AllAscii ((lineHead (text ++ behind)).take text.length))
        ∧ ∀ c, Condition.parse source = .ok c → m.StaysBelow text := by
  obtain ⟨front, text, behind, hsource, hspan, hascii, hwhole⟩ := herror.stopsAt.place
  have hposition : p = ⟨front.count '\n' + 1, (lineTail front).length + 1⟩ := by
    rw [← hp, hsource, hspan, Position.ofOffset_byteLength]
  have hshown : line = lineTail front ++ lineHead (text ++ behind) := by
    rw [hposition, hsource] at hline
    exact eq_of_getElem?_lines hline hwhole
  have hpoints : (Mark.shown p line span).PointsAt p.line front (text ++ behind) := by
    constructor
    . rw [List.append_assoc, ← hshown]
      rfl
    . rw [List.length_append, length_gutter hnumber, hposition]
      simp only [Mark.shown, List.length_append, List.length_replicate]
      exact Nat.add_right_comm 4 _ 1
  have hstays : (Mark.shown p line span).StaysBelow text
      ↔ AllAscii ((lineHead (text ++ behind)).take text.length) := by
    apply Mark.staysBelow_iff
    . rw [hpoints.row_eq, hpoints.length_margin, List.length_append]
    . rw [hspan, hposition, hshown]
      exact underlineLength_eq hascii _
    . exact List.prefix_or_prefix_of_prefix (List.prefix_append text behind) (lineHead_begins _)
  refine ⟨front, text, behind, Mark.shown p line span, hsource, hspan, Mark.snippet_eq hp hline, hpoints,
    hstays, ?_⟩
  intro c hc
  have hsource_ascii := Condition.allAscii_of_parse hc
  rw [hsource] at hsource_ascii
  refine hstays.2 fun d hd => hsource_ascii d (List.mem_append_right _ ?_)
  exact (lineHead_begins _).mem (List.mem_of_mem_take hd)

/-- An error on the second line, with a wide character behind it. -/
theorem staysBelow_error_of_second_line
    : Condition.parse "a = ?\nor bb 'cd' é" = .error ⟨.notOperator (.literal "'cd'"), ⟨12, 16⟩⟩
        ∧ Position.ofOffset "a = ?\nor bb 'cd' é".toList 12 = ⟨2, 7⟩
        ∧ (lines "a = ?\nor bb 'cd' é".toList)[1]? = some "or bb 'cd' é".toList
        ∧ ∃ (front text behind : List Char) (m : Mark),
            "a = ?\nor bb 'cd' é".toList = front ++ (text ++ behind)
            ∧ (⟨12, 16⟩ : Span) = ⟨byteLength front, byteLength front + byteLength text⟩
            ∧ snippet "a = ?\nor bb 'cd' é" ⟨12, 16⟩
              = s!"  --> line {2}:{7}\n" ++ "   |\n" ++ String.ofList m.rows
            ∧ m.PointsAt 2 front (text ++ behind)
            ∧ (m.StaysBelow text ↔ AllAscii ((lineHead (text ++ behind)).take text.length))
            ∧ ∀ c, Condition.parse "a = ?\nor bb 'cd' é" = .ok c → m.StaysBelow text := by
  have hparse : Condition.parse "a = ?\nor bb 'cd' é"
      = .error ⟨.notOperator (.literal "'cd'"), ⟨12, 16⟩⟩ := by
    cbv
  have hp : Position.ofOffset "a = ?\nor bb 'cd' é".toList 12 = ⟨2, 7⟩ := by cbv
  have hline : (lines "a = ?\nor bb 'cd' é".toList)[1]? = some "or bb 'cd' é".toList := by cbv
  have herror : ErrorPlace "a = ?\nor bb 'cd' é" ⟨12, 16⟩ := .parse hparse
  have hmark := staysBelow_error_iff herror hp (by decide) hline
  exact ⟨hparse, hp, hline, hmark⟩

/-- The only character of an error has two bytes: there is a tilde behind the row, and the caret and the
tilde are more than the error. -/
theorem not_staysBelow_error_of_accent
    : Condition.parse "é" = .error ⟨.unexpectedText "é", ⟨0, 2⟩⟩
        ∧ "é".toList = ['é'] ∧ byteLength ['é'] = 2
        ∧ snippet "é" ⟨0, 2⟩ = "  --> line 1:1\n" ++ "   |\n"
          ++ String.ofList (Mark.rows ⟨"  1| é".toList, "   | ".toList, 1⟩)
        ∧ ¬ Mark.StaysBelow ⟨"  1| é".toList, "   | ".toList, 1⟩ ['é'] := by
  exact ⟨by cbv, by decide, by decide, by cbv, by decide⟩

end ObjectStore
