/-!
This module writes natural numbers and integers in decimal and reads them back.
-/

namespace ObjectStore.Decimal

def digit (n : Nat) : Char :=
  Char.ofNat (48 + n % 10)

def digitValue (c : Char) : Nat :=
  c.toNat - 48

def digits (n : Nat) : List Char :=
  if n < 10 then [digit n] else digits (n / 10) ++ [digit n]

def padded (width n : Nat) : List Char :=
  let ds := digits n
  List.replicate (width - ds.length) '0' ++ ds

def ofDigits (ds : List Char) : Nat :=
  ds.foldl (fun n d => 10 * n + digitValue d) 0

def readNat? (cs : List Char) : Option Nat :=
  if !cs.isEmpty && cs.all Char.isDigit then some (ofDigits cs) else none

def signedDigits (i : Int) : List Char :=
  if i < 0 then '-' :: digits i.natAbs else digits i.natAbs

def readInt? : List Char → Option Int
  | '-' :: cs => (readNat? cs).map fun n => -(n : Int)
  | '+' :: cs => (readNat? cs).map fun n => (n : Int)
  | cs => (readNat? cs).map fun n => (n : Int)

theorem digit_isDigit (n : Nat) : (digit n).isDigit = true := by
  have h : ∀ k < 10, (Char.ofNat (48 + k)).isDigit = true := by decide
  exact h _ (Nat.mod_lt _ (by decide))

theorem digitValue_digit (n : Nat) : digitValue (digit n) = n % 10 := by
  have h : ∀ k < 10, digitValue (Char.ofNat (48 + k)) = k := by decide
  exact h _ (Nat.mod_lt _ (by decide))

theorem digits_ne_nil (n : Nat) : digits n ≠ [] := by
  unfold digits
  split <;> simp

theorem digits_all_isDigit (n : Nat) : ∀ c ∈ digits n, c.isDigit = true := by
  induction n using digits.induct with
  | case1 n h => simp [digits, h, digit_isDigit]
  | case2 n h ih =>
    rw [digits, if_neg h]
    intro c hc
    rcases List.mem_append.1 hc with hc | hc
    . exact ih c hc
    . simp only [List.mem_singleton] at hc
      simp [hc, digit_isDigit]

theorem ofDigits_append_singleton (ds : List Char) (d : Char)
    : ofDigits (ds ++ [d]) = 10 * ofDigits ds + digitValue d := by
  simp [ofDigits]

@[simp]
theorem ofDigits_digits (n : Nat) : ofDigits (digits n) = n := by
  induction n using digits.induct with
  | case1 n h =>
    rw [digits, if_pos h]
    simp [ofDigits, digitValue_digit, Nat.mod_eq_of_lt h]
  | case2 n h ih =>
    rw [digits, if_neg h, ofDigits_append_singleton, ih, digitValue_digit]
    omega

end ObjectStore.Decimal
