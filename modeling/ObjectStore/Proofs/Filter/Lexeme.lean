import Mathlib.Data.List.TakeWhile
import ObjectStore.Proofs.Filter.Pieces

/-!
This module proves which piece is taken at the front of a text. `Lexes` says what the pieces are without
a look at the scanner, and that each of them ends where it cannot go on. Whether a piece is taken
depends on nothing but the character behind it, and a blank ends every piece.
-/

namespace ObjectStore

theorem takeWhile_append_eq_iff {α : Type} {p : α → Bool} {xs rest : List α}
    : (xs ++ rest).takeWhile p = xs ↔ (∀ x ∈ xs, p x = true) ∧ ∀ x ∈ rest.head?, p x = false := by
  constructor
  . intro h
    have hall : ∀ x ∈ xs, p x = true := by
      intro x hx
      rw [← h] at hx
      exact List.mem_takeWhile_imp hx
    rw [List.takeWhile_append_of_pos hall, List.append_right_eq_self] at h
    refine ⟨hall, ?_⟩
    intro x hx
    cases rest with
    | nil => cases hx
    | cons y ys =>
      cases hx
      by_contra hpos
      rw [List.takeWhile_cons_of_pos (by simpa using hpos)] at h
      cases h
  . rintro ⟨hall, hrest⟩
    rw [List.takeWhile_append_of_pos hall, List.append_right_eq_self]
    cases rest with
    | nil => rfl
    | cons y ys => exact List.takeWhile_cons_of_neg (by simp [hrest y rfl])

namespace Token

/-- The tokens without letters and digits, as they are written. -/
def symbols : List (List Char × Token) :=
  [(['<'], operator .lt), (['>'], operator .gt), (['<', '='], operator .le), (['>', '='], operator .ge),
    (['='], operator .eq), (['!', '='], operator .ne), (['?'], placeholder), (['('], leftParen),
    ([')'], rightParen)]

/-- The words that a token is written with. -/
def words : Token → List String
  | operator .startsWith => ["starts", "with"]
  | operator .notIn => ["not", "in"]
  | token => [token.spelling]

/-- Identifiers and keywords, those of two words among them. -/
def isWord : Token → Bool
  | operator .startsWith | operator .contains | operator .isIn | operator .notIn => true
  | and | or | identifier _ => true
  | _ => false

end Token

/-- A text with another one behind it is a piece, namely the given token. -/
inductive Lexes : List Char → List Char → Token → Prop where
  | word {c : Char} {cs rest : List Char} (hstart : isWordStart c = true)
    (hword : ∀ d ∈ cs, isWordChar d = true) (hend : ∀ d ∈ rest.head?, isWordChar d = false)
    : Lexes (c :: cs) rest (Token.ofWord (String.ofList (c :: cs)))
  | number {c : Char} {cs rest : List Char} (hdigit : c.isDigit = true)
    (hnumber : ∀ d ∈ cs, isLiteralChar d = true) (hend : ∀ d ∈ rest.head?, isLiteralChar d = false)
    : Lexes (c :: cs) rest (.literal (String.ofList (c :: cs)))
  | quoted {c : Char} {body rest : List Char} (hquote : c = '\'' ∨ c = '"') (hbody : c ∉ body)
    : Lexes (c :: (body ++ [c])) rest (.literal (String.ofList (c :: (body ++ [c]))))
  | symbol {text rest : List Char} {token : Token} (hsymbol : (text, token) ∈ Token.symbols)
    (hend : text = ['<'] ∨ text = ['>'] → '=' ∉ rest.head?)
    : Lexes text rest token

theorem blank_eq {c : Char} (h : isFilterBlank c = true)
    : c = ' ' ∨ c = '\t' ∨ c = '\r' ∨ c = '\n' := by
  simpa only [isFilterBlank, Bool.or_eq_true, beq_iff_eq, or_assoc] using h

theorem not_isLiteralChar_of_blank {c : Char} (h : isFilterBlank c = true) : isLiteralChar c = false := by
  rcases blank_eq h with rfl | rfl | rfl | rfl <;> decide

theorem not_isWordChar_of_blank {c : Char} (h : isFilterBlank c = true) : isWordChar c = false := by
  rcases blank_eq h with rfl | rfl | rfl | rfl <;> decide

theorem bounds_of_isWordStart {c : Char} (h : isWordStart c = true) : 65 ≤ c.toNat ∧ c.toNat < 128 := by
  rw [isWordStart, Bool.or_eq_true, beq_iff_eq] at h
  obtain hletter | rfl := h
  . obtain hupper | hlower := Bool.or_eq_true_iff.1 (show (c.isUpper || c.isLower) = true from hletter)
    . obtain ⟨hfirst, hlast⟩ := of_decide_eq_true hupper
      exact ⟨hfirst, Nat.lt_of_le_of_lt hlast (by decide)⟩
    . obtain ⟨hfirst, hlast⟩ := Bool.and_eq_true_iff.1 hlower
      exact ⟨Nat.le_trans (by decide) (of_decide_eq_true hfirst),
        Nat.lt_of_le_of_lt (of_decide_eq_true hlast) (by decide)⟩
  . decide

theorem lt_65_of_isDigit {c : Char} (h : c.isDigit = true) : c.toNat < 65 := by
  obtain ⟨-, hlast⟩ := Bool.and_eq_true_iff.1 h
  exact Nat.lt_of_le_of_lt (of_decide_eq_true hlast) (by decide)

theorem isWordStart_of_isDigit {c : Char} (h : c.isDigit = true) : isWordStart c = false := by
  by_contra hstart
  have hbounds := bounds_of_isWordStart (by simpa using hstart)
  exact absurd (lt_65_of_isDigit h) (Nat.not_lt.2 hbounds.1)

variable {c : Char} {cs text tail rest rest' : List Char} {token : Token}

theorem lexes_of_lexeme (h : lexeme c (tail ++ rest) = ⟨some token, tail⟩)
    : Lexes (c :: tail) rest token := by
  unfold lexeme at h
  split at h
  . next hstart =>
    simp only [Lexeme.mk.injEq, Option.some.injEq] at h
    obtain ⟨rfl, htail⟩ := h
    rw [htail]
    obtain ⟨hword, hend⟩ := takeWhile_append_eq_iff.1 htail
    exact .word hstart hword hend
  . split at h
    . next hdigit =>
      simp only [Lexeme.mk.injEq, Option.some.injEq] at h
      obtain ⟨rfl, htail⟩ := h
      rw [htail]
      obtain ⟨hnumber, hend⟩ := takeWhile_append_eq_iff.1 htail
      exact .number hdigit hnumber hend
    . split at h
      . next hquote =>
        have hbody : c ∉ (tail ++ rest).takeWhile (· != c) := by
          intro hc
          simpa using List.mem_takeWhile_imp hc
        generalize (tail ++ rest).takeWhile (· != c) = body at h hbody
        dsimp only at h
        split at h
        . simp only [Lexeme.mk.injEq, Option.some.injEq] at h
          obtain ⟨rfl, rfl⟩ := h
          exact .quoted (by simpa using hquote) hbody
        . cases h
      . split at h
        all_goals cases h
        all_goals
          refine .symbol (by decide) ?_
          intro hangle
          simp_all [List.head?_eq_some_iff]

-- An angle is a piece of its own only where it is not the first half of another piece.
theorem lexeme_angle (h : '=' ∉ rest.head?)
    : lexeme '<' rest = ⟨some (.operator .lt), []⟩ ∧ lexeme '>' rest = ⟨some (.operator .gt), []⟩ := by
  cases rest with
  | nil => exact ⟨rfl, rfl⟩
  | cons d ds =>
    have hd : d ≠ '=' := by
      rintro rfl
      exact h rfl
    constructor
    all_goals
      unfold lexeme
      rw [if_neg (by decide), if_neg (by decide), if_neg (by decide)]
      split
      all_goals simp_all

theorem lexeme_of_lexes (h : Lexes (c :: tail) rest token)
    : lexeme c (tail ++ rest) = ⟨some token, tail⟩ := by
  generalize htext : c :: tail = text at h
  cases h with
  | word hstart hword hend =>
    cases htext
    unfold lexeme
    rw [if_pos hstart, takeWhile_append_eq_iff.2 ⟨hword, hend⟩]
  | number hdigit hnumber hend =>
    cases htext
    unfold lexeme
    rw [if_neg (by simp [isWordStart_of_isDigit hdigit]), if_pos hdigit,
      takeWhile_append_eq_iff.2 ⟨hnumber, hend⟩]
  | @quoted d body _ hquote hbody =>
    cases htext
    have htake : (body ++ [c] ++ rest).takeWhile (· != c) = body := by
      rw [List.append_assoc, takeWhile_append_eq_iff]
      refine ⟨?_, by simp⟩
      intro x hx
      simp only [bne_iff_ne, ne_eq]
      rintro rfl
      exact hbody hx
    have hfirst : isWordStart c = false ∧ c.isDigit = false := by
      rcases hquote with rfl | rfl <;> decide
    unfold lexeme
    rw [if_neg (by simp [hfirst.1]), if_neg (by simp [hfirst.2]), if_pos (by simpa using hquote), htake]
    dsimp only
    rw [if_pos (by simp)]
    rfl
  | symbol hsymbol hend =>
    subst htext
    simp only [Token.symbols, List.mem_cons, List.not_mem_nil, or_false, Prod.mk.injEq] at hsymbol
    rcases hsymbol with ⟨hs, rfl⟩ | ⟨hs, rfl⟩ | ⟨hs, rfl⟩ | ⟨hs, rfl⟩ | ⟨hs, rfl⟩ | ⟨hs, rfl⟩ | ⟨hs, rfl⟩
      | ⟨hs, rfl⟩ | ⟨hs, rfl⟩
    all_goals cases hs
    . exact (lexeme_angle (hend (.inl rfl))).1
    . exact (lexeme_angle (hend (.inr rfl))).2
    all_goals rfl

/-- The pieces that are taken are those there are, and where one is possible no other one is taken. -/
theorem lexeme_eq_iff
    : lexeme c (tail ++ rest) = ⟨some token, tail⟩ ↔ Lexes (c :: tail) rest token :=
  ⟨lexes_of_lexeme, lexeme_of_lexes⟩

/-- A quotation that ends before the text does is a piece at the front of it. -/
theorem quotation_prefix (h : (cs.takeWhile (· != c)).length < cs.length)
    : cs.takeWhile (· != c) ++ [c] <+: cs := by
  induction cs with
  | nil => exact absurd h (Nat.lt_irrefl _)
  | cons d ds ih =>
    by_cases hd : d = c
    . rw [List.takeWhile_cons_of_neg (by simp [hd]), hd]
      exact List.prefix_append [c] ds
    . rw [List.takeWhile_cons_of_pos (by simp [hd])] at h ⊢
      exact (List.prefix_cons_inj d).2 (ih (Nat.lt_of_succ_lt_succ h))

/-- A piece stands at the front of the text, whether it is a token or not. -/
theorem tail_lexeme_prefix (c : Char) (cs : List Char) : (lexeme c cs).tail <+: cs := by
  unfold lexeme
  split
  . exact List.takeWhile_prefix _
  . split
    . exact List.takeWhile_prefix _
    . split
      . dsimp only
        split
        . next hshort => exact quotation_prefix hshort
        . exact List.prefix_refl cs
      . split
        all_goals simp

theorem words_ofWord (word : String) : (Token.ofWord word).words = [word] := by
  unfold Token.ofWord
  split <;> rfl

namespace Lexes

/-- A piece is one word, and it is the text of the piece. -/
theorem words_eq (h : Lexes text rest token) : token.words = [String.ofList text] := by
  cases h with
  | word => exact words_ofWord _
  | number => rfl
  | quoted => rfl
  | symbol hsymbol =>
    have htable : ∀ entry ∈ Token.symbols, entry.2.words = [String.ofList entry.1] := by decide
    exact htable _ hsymbol

theorem ne_nil (h : Lexes text rest token) : text ≠ [] := by
  cases h with
  | word => exact List.cons_ne_nil _ _
  | number => exact List.cons_ne_nil _ _
  | quoted => exact List.cons_ne_nil _ _
  | symbol hsymbol =>
    have htable : ∀ entry ∈ Token.symbols, entry.1 ≠ [] := by decide
    exact htable _ hsymbol

theorem not_blank (h : Lexes (c :: tail) rest token) : isFilterBlank c = false := by
  by_contra hblank
  have hnone : lexeme c (tail ++ rest) = ⟨none, []⟩ := by
    rcases blank_eq (by simpa using hblank) with rfl | rfl | rfl | rfl <;> rfl
  rw [lexeme_of_lexes h] at hnone
  cases hnone

theorem lt_128 (h : Lexes text rest token) : ∀ c ∈ text.head?, c.toNat < 128 := by
  intro c hc
  cases h with
  | word hstart =>
    cases hc
    exact (bounds_of_isWordStart hstart).2
  | number hdigit =>
    cases hc
    exact Nat.lt_trans (lt_65_of_isDigit hdigit) (by decide)
  | quoted hquote =>
    cases hc
    rcases hquote with rfl | rfl <;> decide
  | symbol hsymbol =>
    have htable : ∀ entry ∈ Token.symbols, entry.1.all (·.toNat < 128) = true := by decide
    exact of_decide_eq_true (List.all_eq_true.1 (htable _ hsymbol) c (List.mem_of_mem_head? hc))

theorem of_isWord (h : Lexes text rest token) (hword : token.isWord = true)
    : (∀ c ∈ text.head?, isWordStart c = true) ∧ ∀ d ∈ rest.head?, isWordChar d = false := by
  cases h with
  | word hstart _ hend =>
    refine ⟨?_, hend⟩
    intro c hc
    cases hc
    exact hstart
  | number => cases hword
  | quoted => cases hword
  | symbol hsymbol =>
    have htable : ∀ entry ∈ Token.symbols, entry.2.isWord = false := by decide
    rw [htable _ hsymbol] at hword
    cases hword

/-- A piece remains one when a blank or the end of the text comes behind it. -/
theorem of_blank (h : Lexes text rest token) (hblank : ∀ d ∈ rest'.head?, isFilterBlank d = true)
    : Lexes text rest' token := by
  cases h with
  | word hstart hword =>
    exact .word hstart hword fun d hd => not_isWordChar_of_blank (hblank d hd)
  | number hdigit hnumber =>
    exact .number hdigit hnumber fun d hd => not_isLiteralChar_of_blank (hblank d hd)
  | quoted hquote hbody => exact .quoted hquote hbody
  | symbol hsymbol =>
    refine .symbol hsymbol ?_
    intro _ heq
    exact absurd (hblank '=' heq) (by decide)

end Lexes

end ObjectStore
