import ObjectStore.Binary64.Shortest
import ObjectStore.Decimal.Digits

/-!
This module writes floating point numbers in decimal and reads them.
-/

namespace ObjectStore.Binary64

open Decimal

def zeros (n : Nat) : List Char :=
  List.replicate n '0'

/-- The digits of `coefficient * 10 ^ exponent` with the point in its place, where there is a
fraction. -/
def ShortDecimal.positional (s : ShortDecimal) : List Char :=
  let ds := digits s.coefficient
  let places := (-s.exponent).toNat
  if places = 0 then
    ds ++ zeros s.exponent.toNat
  else if places < ds.length then
    ds.take (ds.length - places) ++ '.' :: ds.drop (ds.length - places)
  else
    '0' :: '.' :: zeros (places - ds.length) ++ ds

def ShortDecimal.leadingExponent (s : ShortDecimal) : Int :=
  s.exponent + (digits s.coefficient).length - 1

def ShortDecimal.scientific (s : ShortDecimal) : List Char :=
  let e := s.leadingExponent
  let mantissa :=
    match digits s.coefficient with
    | [] => []
    | [d] => [d]
    | d :: ds => d :: '.' :: ds
  mantissa ++ 'e' :: (if e < 0 then '-' else '+') :: digits e.natAbs

def signText (x : Binary64) : List Char :=
  if x.negative then ['-'] else []

def specialText (x : Binary64) : List Char :=
  if x.isNaN then ['N', 'a', 'N'] else x.signText ++ ['i', 'n', 'f']

/-- The text of a number without an exponent. Whole numbers have no point. -/
def plainText (x : Binary64) : String :=
  if x.isFinite then
    String.ofList (x.signText ++ (x.shortest .up).positional)
  else
    String.ofList x.specialText

/-- The text of a number that shows that it is a floating point number: whole numbers end in `.0`,
and from `10 ^ 16` on and below `10 ^ -5` there is an exponent. -/
def floatText (x : Binary64) : String :=
  if x.isFinite then
    let s := x.shortest .toEven
    let body :=
      if x.magnitude = 0 || (-5 ≤ s.leadingExponent && s.leadingExponent < 16) then
        if 0 ≤ s.exponent then s.positional ++ ['.', '0'] else s.positional
      else
        s.scientific
    String.ofList (x.signText ++ body)
  else
    String.ofList x.specialText

def readExponent? : List Char → Option Int
  | [] => some 0
  | e :: cs => if e = 'e' ∨ e = 'E' then readInt? cs else none

/-- Reads a number without its sign: digits with a point among them or not, one digit at least,
and an exponent; or a word for infinity or for what is no number. -/
def readMagnitude? (negative : Bool) (cs : List Char) : Option Binary64 :=
  let whole := cs.takeWhile Char.isDigit
  let rest := cs.dropWhile Char.isDigit
  let (fraction, rest) :=
    match rest with
    | '.' :: rest => (rest.takeWhile Char.isDigit, rest.dropWhile Char.isDigit)
    | rest => ([], rest)
  if whole.isEmpty && fraction.isEmpty then
    let word := String.ofList (cs.map Char.toLower)
    if word = "inf" ∨ word = "infinity" then some (inf negative)
    else if word = "nan" then some (nan negative)
    else none
  else
    (readExponent? rest).map fun e =>
      ofDecimal negative (ofDigits (whole ++ fraction)) (e - fraction.length)

/-- Reads a number with an optional sign. The text holds nothing else, not even blanks. -/
def read? : List Char → Option Binary64
  | '-' :: cs => readMagnitude? true cs
  | '+' :: cs => readMagnitude? false cs
  | cs => readMagnitude? false cs

end ObjectStore.Binary64
