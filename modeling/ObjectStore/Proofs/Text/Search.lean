import Mathlib.Data.List.Infix
import ObjectStore.Filter.Operator

/-!
This module compares the lowercase form of a text with the forms of its parts. They differ where a sigma ends
a word in the part but not in the text, or the other way round. It proves that a search finds a part of a text
in its place unless it has such a sigma, and which parts are found in whatever text they stand.
-/

namespace ObjectStore

namespace Text

/-- A sigma between two texts is at the end of a word. The text before it is given backwards. -/
def endsWord (before after : List Char) : Bool :=
  meetsCased before && !meetsCased after

/-- The lowercase form of a character between two texts. -/
def lowerBetween (before : List Char) (c : Char) (after : List Char) : List Char :=
  if c = 'Σ' then if endsWord before after then ['ς'] else ['σ'] else lowerChar c

/-- The lowercase form of a part between two texts. -/
def lowerAmid (before : List Char) : List Char → List Char → List Char
  | [], _ => []
  | c :: part, after => lowerBetween before c (part ++ after) ++ lowerAmid (c :: before) part after

/-- Every sigma of the part ends a word where the part stands if and only if it does in the part alone. -/
def SigmasKept (before part after : List Char) : Prop :=
  ∀ front back, part = front ++ 'Σ' :: back →
    endsWord (front.reverse ++ before) (back ++ after) = endsWord front.reverse back

/-- The last word of the text ends with a sigma. -/
def EndsInSigma (cs : List Char) : Prop :=
  ∃ front back, cs = front ++ 'Σ' :: back
    ∧ meetsCased front.reverse = true ∧ back.all isCaseIgnorable = true

/-- The first word of the text is a sigma alone. -/
def BeginsWithSigma (cs : List Char) : Prop :=
  ∃ front back, cs = front ++ 'Σ' :: back
    ∧ front.all isCaseIgnorable = true ∧ meetsCased back = false

variable {before before' part after after' p q r : List Char} {c x : Char}

theorem meetsCased_append (cs ds : List Char)
    : meetsCased (cs ++ ds) = if cs.all isCaseIgnorable then meetsCased ds else meetsCased cs := by
  unfold meetsCased
  induction cs with
  | nil => rfl
  | cons c cs ih =>
    cases hc : isCaseIgnorable c with
    | true => simpa [List.dropWhile_cons, hc] using ih
    | false => simp [hc]

theorem meetsCased_of_all {cs : List Char} (h : cs.all isCaseIgnorable = true)
    : meetsCased cs = false := by
  have happend := meetsCased_append cs []
  rw [List.append_nil, if_pos h] at happend
  exact happend

theorem all_reverse (cs : List Char) : cs.reverse.all isCaseIgnorable = cs.all isCaseIgnorable := by
  simp

theorem go_append (before part after : List Char)
    : lower.go before (part ++ after)
        =
      lowerAmid before part after ++ lower.go (part.reverse ++ before) after := by
  induction part generalizing before with
  | nil => rfl
  | cons c part ih =>
    rw [List.cons_append, lower.go, ih]
    simp [lowerAmid, lowerBetween, endsWord]

theorem lower_append (p q : List Char)
    : lower (p ++ q) = lowerAmid [] p q ++ lower.go p.reverse q := by
  unfold lower
  rw [go_append, List.append_nil]

theorem lower_eq (cs : List Char) : lower cs = lowerAmid [] cs [] := by
  have happend := lower_append cs []
  rw [List.append_nil, lower.go, List.append_nil] at happend
  exact happend

/-- The form of a text from the forms that three parts have in it. -/
theorem lower_append_append (p q r : List Char)
    : lower (p ++ q ++ r)
        =
      lowerAmid [] p (q ++ r) ++ (lowerAmid p.reverse q r ++ lower.go (p ++ q).reverse r) := by
  rw [List.append_assoc, lower_append, go_append, List.reverse_append]

/-! Forms in different places have the same length, and are the same if the sigmas are. -/

theorem length_lowerBetween (before before' after after' : List Char) (c : Char)
    : (lowerBetween before c after).length = (lowerBetween before' c after').length := by
  unfold lowerBetween
  split
  . split <;> split <;> rfl
  . rfl

theorem length_lowerAmid (before before' part after after' : List Char)
    : (lowerAmid before part after).length = (lowerAmid before' part after').length := by
  induction part generalizing before before' with
  | nil => rfl
  | cons c part ih =>
    rw [lowerAmid, lowerAmid, List.length_append, List.length_append, ih (c :: before) (c :: before'),
      length_lowerBetween]

theorem lowerBetween_eq_iff
    : lowerBetween before c after = lowerBetween before' c after'
        ↔
      (c = 'Σ' → endsWord before after = endsWord before' after') := by
  unfold lowerBetween
  by_cases hc : c = 'Σ'
  . simp only [hc, if_true, forall_const]
    cases endsWord before after <;> cases endsWord before' after' <;> decide
  . simp [hc]

theorem lowerAmid_eq_iff
    : lowerAmid before part after = lowerAmid before' part after'
        ↔
      ∀ front back, part = front ++ 'Σ' :: back →
        endsWord (front.reverse ++ before) (back ++ after)
          =
        endsWord (front.reverse ++ before') (back ++ after') := by
  induction part generalizing before before' with
  | nil => simp [lowerAmid]
  | cons c part ih =>
    have hsplit : lowerAmid before (c :: part) after = lowerAmid before' (c :: part) after'
        ↔ (c = 'Σ' → endsWord before (part ++ after) = endsWord before' (part ++ after'))
          ∧ lowerAmid (c :: before) part after = lowerAmid (c :: before') part after' := by
      rw [← lowerBetween_eq_iff, lowerAmid, lowerAmid]
      constructor
      . intro h
        exact List.append_inj h (length_lowerBetween ..)
      . rintro ⟨hfirst, hrest⟩
        rw [hfirst, hrest]
    rw [hsplit, ih]
    constructor
    . rintro ⟨hfirst, hrest⟩ front back hpart
      -- The sigma is the first character of the part, or stands in the rest.
      cases front with
      | nil =>
        cases hpart
        exact hfirst rfl
      | cons d front =>
        cases hpart
        simpa using hrest front back rfl
    . intro h
      refine ⟨?_, ?_⟩
      . rintro rfl
        exact h [] part rfl
      . rintro front back rfl
        simpa using h (c :: front) back rfl

theorem lowerAmid_eq_lower_iff : lowerAmid before part after = lower part ↔ SigmasKept before part after := by
  rw [lower_eq, lowerAmid_eq_iff]
  simp only [List.append_nil]
  rfl

theorem length_lowerAmid_eq (before part after : List Char)
    : (lowerAmid before part after).length = (lower part).length := by
  rw [lower_eq]
  apply length_lowerAmid

theorem prefix_append_iff_of_length_eq {a b : List Char} (h : a.length = b.length) (rest : List Char)
    : a <+: b ++ rest ↔ b = a := by
  rw [List.prefix_iff_eq_take, h, List.take_left]
  exact eq_comm

/-- A text begins with the form of its first part if the sigmas of the part are kept. -/
theorem lower_prefix_iff : lower p <+: lower (p ++ q) ↔ SigmasKept [] p q := by
  rw [lower_append, prefix_append_iff_of_length_eq (length_lowerAmid_eq ..).symm, lowerAmid_eq_lower_iff]

theorem lower_prefix_drop_iff
    : lower q <+: (lower (p ++ q ++ r)).drop (lower p).length ↔ SigmasKept p.reverse q r := by
  rw [lower_append_append, List.drop_left' (length_lowerAmid_eq ..),
    prefix_append_iff_of_length_eq (length_lowerAmid_eq ..).symm, lowerAmid_eq_lower_iff]

theorem infix_iff_exists_prefix_drop {needle cs : List Char}
    : needle <:+: cs ↔ ∃ n, needle <+: cs.drop n := by
  constructor
  . rintro ⟨front, back, rfl⟩
    refine ⟨front.length, ?_⟩
    rw [List.append_assoc, List.drop_left]
    exact List.prefix_append needle back
  . rintro ⟨n, hprefix⟩
    exact hprefix.isInfix.trans (List.drop_suffix n cs).isInfix

/-! The sigmas that are not kept stand at an end of the part, with only characters around them that do not
count. -/

theorem sigmasKept_before_iff
    : SigmasKept [] p q ↔ ¬(EndsInSigma p ∧ meetsCased q = true) := by
  unfold SigmasKept EndsInSigma endsWord
  constructor
  . rintro h ⟨⟨front, back, hp, hfront, hback⟩, hq⟩
    have hkept := h front back hp
    rw [List.append_nil, hfront, meetsCased_append, if_pos hback, meetsCased_of_all hback, hq] at hkept
    cases hkept
  . intro h front back hp
    rw [List.append_nil, meetsCased_append]
    split
    . next hback =>
      rw [meetsCased_of_all hback]
      cases hfront : meetsCased front.reverse with
      | false => rfl
      | true =>
        cases hq : meetsCased q with
        | false => rfl
        | true => exact absurd ⟨⟨front, back, hp, hfront, hback⟩, hq⟩ h
    . rfl

/-- The sigmas of a part are kept in all texts if none of them stands at an end. -/
theorem sigmasKept_of_not_open (hends : ¬EndsInSigma part) (hbegins : ¬BeginsWithSigma part)
    (before after : List Char) : SigmasKept before part after := by
  intro front back hpart
  unfold endsWord
  rw [meetsCased_append, meetsCased_append, all_reverse]
  by_cases hfront : front.all isCaseIgnorable = true
  . have hback : meetsCased back = true := by
      by_contra hback
      exact hbegins ⟨front, back, hpart, hfront, Bool.eq_false_iff.mpr hback⟩
    have hnot : ¬back.all isCaseIgnorable = true := by
      intro hall
      rw [meetsCased_of_all hall] at hback
      cases hback
    rw [if_neg hnot, hback, Bool.not_true, Bool.and_false, Bool.and_false]
  . rw [if_neg hfront]
    split
    . next hback =>
      have hfront' : meetsCased front.reverse = false := by
        by_contra hcased
        exact hends ⟨front, back, hpart, by simpa using hcased, hback⟩
      rw [hfront', Bool.false_and, Bool.false_and]
    . rfl

/-! A part is not found if the text has fewer sigmas of one of the forms than the part. -/

theorem lowerAmid_append (before p q after : List Char)
    : lowerAmid before (p ++ q) after
        =
      lowerAmid before p (q ++ after) ++ lowerAmid (p.reverse ++ before) q after := by
  induction p generalizing before with
  | nil => rfl
  | cons c p ih => simp [lowerAmid, ih]

/-- No sigma of the part has the given form between the first two texts unless it has it between the other
two. -/
def FormKept (x : Char) (before after before' after' part : List Char) : Prop :=
  ∀ front back, part = front ++ 'Σ' :: back →
    (lowerBetween (front.reverse ++ before) 'Σ' (back ++ after)).count x
      ≤ (lowerBetween (front.reverse ++ before') 'Σ' (back ++ after')).count x

theorem FormKept.left (h : FormKept x before after before' after' (p ++ q))
    : FormKept x before (q ++ after) before' (q ++ after') p := by
  rintro front back rfl
  simpa using h front (back ++ q) (by simp)

theorem FormKept.right (h : FormKept x before after before' after' (p ++ q))
    : FormKept x (p.reverse ++ before) after (p.reverse ++ before') after' q := by
  rintro front back rfl
  simpa using h (p ++ front) back (by simp)

theorem FormKept.count_le (h : FormKept x before after before' after' part)
    : (lowerAmid before part after).count x ≤ (lowerAmid before' part after').count x := by
  induction part generalizing before before' with
  | nil => exact Nat.le_refl _
  | cons c part ih =>
    rw [lowerAmid, lowerAmid, List.count_append, List.count_append]
    apply Nat.add_le_add
    . by_cases hc : c = 'Σ'
      . subst hc
        exact h [] part rfl
      . simp [lowerBetween, hc]
    . exact ih (FormKept.right (p := [c]) h)

theorem FormKept.count_lt {front back : List Char}
    (h : FormKept x before after before' after' (front ++ 'Σ' :: back))
    (hlt : (lowerBetween (front.reverse ++ before) 'Σ' (back ++ after)).count x
      < (lowerBetween (front.reverse ++ before') 'Σ' (back ++ after')).count x)
    : (lowerAmid before (front ++ 'Σ' :: back) after).count x
        < (lowerAmid before' (front ++ 'Σ' :: back) after').count x := by
  rw [lowerAmid_append, lowerAmid_append, lowerAmid, lowerAmid]
  simp only [List.count_append]
  apply Nat.add_lt_add_of_le_of_lt h.left.count_le
  apply Nat.add_lt_add_of_lt_of_le hlt
  exact (FormKept.right (p := ['Σ']) h.right).count_le

theorem count_final (before after : List Char)
    : (lowerBetween before 'Σ' after).count 'ς' = (endsWord before after).toNat := by
  unfold lowerBetween
  rw [if_pos rfl]
  cases endsWord before after <;> rfl

theorem count_medial (before after : List Char)
    : (lowerBetween before 'Σ' after).count 'σ' = (!endsWord before after).toNat := by
  unfold lowerBetween
  rw [if_pos rfl]
  cases endsWord before after <;> rfl

/-- A cased letter, and the only form that it has. -/
theorem meetsCased_letter : meetsCased ['a'] = true := by decide

theorem count_lower_before_letter (h : EndsInSigma part)
    : (lower (part ++ ['a'])).count 'ς' < (lower part).count 'ς' := by
  obtain ⟨front, back, rfl, hfront, hback⟩ := h
  have hletter : lower.go (front ++ 'Σ' :: back).reverse ['a'] = ['a'] := rfl
  rw [lower_append, hletter, lower_eq, List.count_append]
  apply FormKept.count_lt
  . intro front' back' _
    rw [count_final, count_final]
    unfold endsWord
    rw [List.append_nil, List.append_nil, meetsCased_append back', meetsCased_letter]
    split
    . simp
    . exact Nat.le_refl _
  . rw [count_final, count_final]
    unfold endsWord
    rw [List.append_nil, List.append_nil, hfront, meetsCased_append, if_pos hback, meetsCased_letter,
      meetsCased_of_all hback]
    decide

theorem count_lower_after_letter (h : BeginsWithSigma part)
    : (lower (['a'] ++ part)).count 'σ' < (lower part).count 'σ' := by
  obtain ⟨front, back, rfl, hfront, hback⟩ := h
  have hbefore : meetsCased front.reverse = false := meetsCased_of_all (by rwa [all_reverse])
  have hletter : lowerAmid [] ['a'] (front ++ 'Σ' :: back) = ['a'] := rfl
  have hpart : lower.go ['a'].reverse (front ++ 'Σ' :: back) = lowerAmid ['a'] (front ++ 'Σ' :: back) [] := by
    have happend := go_append ['a'].reverse (front ++ 'Σ' :: back) []
    rw [List.append_nil, lower.go, List.append_nil] at happend
    exact happend
  rw [lower_append, hletter, hpart, lower_eq]
  apply FormKept.count_lt
  . intro front' back' _
    rw [count_medial, count_medial]
    unfold endsWord
    rw [List.append_nil, List.append_nil, meetsCased_append front'.reverse, meetsCased_letter]
    split
    . next hall =>
      rw [meetsCased_of_all hall]
      cases meetsCased back' <;> decide
    . exact Nat.le_refl _
  . rw [count_medial, count_medial]
    unfold endsWord
    rw [List.append_nil, List.append_nil, hback, meetsCased_append, all_reverse, if_pos hfront,
      meetsCased_letter, hbefore]
    decide

end Text

namespace Operator

open Text

theorem contains_string_iff {s t : String}
    : contains.apply (.string s) (.string t) = true ↔ lower t.toList <:+: lower s.toList := hasInfix_iff

theorem startsWith_string_iff {s t : String}
    : startsWith.apply (.string s) (.string t) = true ↔ lower t.toList <+: lower s.toList :=
  List.isPrefixOf_iff_prefix

theorem not_contains_of_endsInSigma {q : String} (h : EndsInSigma q.toList)
    : contains.apply (.string ("" ++ q ++ "a")) (.string q) ≠ true := by
  rw [ne_eq, contains_string_iff]
  intro hinfix
  have hle := hinfix.sublist.count_le 'ς'
  have hlt := count_lower_before_letter h
  have htext : ("" ++ q ++ "a").toList = q.toList ++ ['a'] := by simp
  rw [htext] at hle
  omega

theorem not_contains_of_beginsWithSigma {q : String} (h : BeginsWithSigma q.toList)
    : contains.apply (.string ("a" ++ q ++ "")) (.string q) ≠ true := by
  rw [ne_eq, contains_string_iff]
  intro hinfix
  have hle := hinfix.sublist.count_le 'σ'
  have hlt := count_lower_after_letter h
  have htext : ("a" ++ q ++ "").toList = ['a'] ++ q.toList := by simp
  rw [htext] at hle
  omega

/-- A text starts with its first part unless the last word of the part ends with a sigma and goes on behind
it. A part is found in its place if each of its sigmas is at the end of a word both in the part and in the text,
or in neither. The parts that are found in all texts are those where this cannot depend on the text. -/
theorem part_found_iff (p q r : String)
    : (startsWith.apply (.string (p ++ q)) (.string p) = true
          ↔
        ¬(EndsInSigma p.toList ∧ meetsCased q.toList = true))
        ∧
      (contains.apply (.string (p ++ q ++ r)) (.string q) = true
          ↔
        SigmasKept p.toList.reverse q.toList r.toList
          ∨ ∃ n ≠ (lower p.toList).length, lower q.toList <+: (lower (p ++ q ++ r).toList).drop n)
        ∧
      ((∀ p r : String, contains.apply (.string (p ++ q ++ r)) (.string q) = true)
          ↔
        ¬EndsInSigma q.toList ∧ ¬BeginsWithSigma q.toList) := by
  have hplace : ∀ p r : String, SigmasKept p.toList.reverse q.toList r.toList
      ↔ lower q.toList <+: (lower (p ++ q ++ r).toList).drop (lower p.toList).length := by
    intro p r
    rw [String.toList_append, String.toList_append, lower_prefix_drop_iff]
  refine ⟨?_, ?_, ?_⟩
  . rw [startsWith_string_iff, String.toList_append, lower_prefix_iff, sigmasKept_before_iff]
  . rw [contains_string_iff, infix_iff_exists_prefix_drop, hplace]
    constructor
    . rintro ⟨n, hn⟩
      by_cases heq : n = (lower p.toList).length
      . exact .inl (heq ▸ hn)
      . exact .inr ⟨n, heq, hn⟩
    . rintro (hn | ⟨n, -, hn⟩)
      . exact ⟨_, hn⟩
      . exact ⟨n, hn⟩
  . constructor
    . intro hfound
      exact ⟨fun hends => not_contains_of_endsInSigma hends (hfound "" "a"),
        fun hbegins => not_contains_of_beginsWithSigma hbegins (hfound "a" "")⟩
    . rintro ⟨hends, hbegins⟩ p r
      have hkept := sigmasKept_of_not_open hends hbegins p.toList.reverse r.toList
      rw [contains_string_iff, infix_iff_exists_prefix_drop]
      exact ⟨_, (hplace p r).mp hkept⟩

/-- The first two letters end with a sigma, which is no longer at the end of the word before the third. -/
theorem part_not_found_of_sigma
    : contains.apply (.string ("" ++ "ΑΣ" ++ "Α")) (.string "ΑΣ") = false
        ∧
      startsWith.apply (.string ("ΑΣ" ++ "Α")) (.string "ΑΣ") = false := by
  decide +kernel

end Operator

end ObjectStore
