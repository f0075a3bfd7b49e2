import ObjectStore.Binary64.Notation
import ObjectStore.Keyed

/-!
This module contains JSON documents and their compact text. The fields of an object are kept in
ascending order of their names.
-/

namespace ObjectStore

/-- A number in a document: an integer of 64 bits, signed or not, or a finite float. Integers and
floats are different numbers. -/
inductive JsonNumber where
  | int (i : Int) (first_le : -0x8000000000000000 ≤ i) (lt_last : i < 0x10000000000000000)
  | float (x : Binary64) (finite : x.isFinite = true)
deriving DecidableEq, Repr

namespace JsonNumber

def ofFloat? (x : Binary64) : Option JsonNumber :=
  if h : x.isFinite = true then some (.float x h) else none

/-- The number written as `coefficient * 10 ^ exponent`. Without an exponent it is an integer, unless
it has more than 64 bits. -/
def ofDecimal? (coefficient exponent : Int) : Option JsonNumber :=
  if h : exponent = 0 ∧ -0x8000000000000000 ≤ coefficient ∧ coefficient < 0x10000000000000000 then
    some (.int coefficient h.2.1 h.2.2)
  else
    ofFloat? (Binary64.ofDecimal (coefficient < 0) coefficient.natAbs exponent)

def text : JsonNumber → String
  | .int i .. => String.ofList (Decimal.signedDigits i)
  | .float x _ => x.floatText

def same : JsonNumber → JsonNumber → Bool
  | .int i .., .int j .. => i == j
  | .float x _, .float y _ => x.same y
  | _, _ => false

end JsonNumber

inductive Json where
  | null
  | bool (b : Bool)
  | number (n : JsonNumber)
  | string (s : String)
  | array (items : List Json)
  | object (fields : List (String × Json))
deriving Repr

namespace Json

instance : Inhabited Json := ⟨null⟩

/-- The object with the given fields. A later field replaces an earlier one of the same name. -/
def ofFields (fields : List (String × Json)) : Json :=
  object (Keyed.ofList fields).entries

def isNull : Json → Bool
  | null => true
  | _ => false

def escapeChar (c : Char) : List Char :=
  match c with
  | '"' => ['\\', '"']
  | '\\' => ['\\', '\\']
  | '\x08' => ['\\', 'b']
  | '\t' => ['\\', 't']
  | '\n' => ['\\', 'n']
  | '\x0c' => ['\\', 'f']
  | '\r' => ['\\', 'r']
  | _ =>
    if c.toNat < 0x20 then
      ['\\', 'u', '0', '0'] ++ Nat.toDigits 16 (c.toNat / 16) ++ Nat.toDigits 16 (c.toNat % 16)
    else
      [c]

/-- A string between quotes. Only quotes, backslashes and control characters are escaped. -/
def stringText (s : String) : String :=
  String.ofList ('"' :: s.toList.flatMap escapeChar ++ ['"'])

mutual

def text : Json → String
  | null => "null"
  | bool b => if b then "true" else "false"
  | number n => n.text
  | string s => stringText s
  | array items => "[" ++ ",".intercalate (itemTexts items) ++ "]"
  | object fields => "\x7b" ++ ",".intercalate (fieldTexts fields) ++ "\x7d"

def itemTexts : List Json → List String
  | [] => []
  | item :: items => item.text :: itemTexts items

def fieldTexts : List (String × Json) → List String
  | [] => []
  | (name, value) :: fields => (stringText name ++ ":" ++ value.text) :: fieldTexts fields

end

mutual

def same : Json → Json → Bool
  | null, null => true
  | bool a, bool b => a == b
  | number m, number n => m.same n
  | string s, string t => s == t
  | array xs, array ys => sameItems xs ys
  | object xs, object ys => sameFields xs ys
  | _, _ => false

def sameItems : List Json → List Json → Bool
  | [], [] => true
  | x :: xs, y :: ys => x.same y && sameItems xs ys
  | _, _ => false

def sameFields : List (String × Json) → List (String × Json) → Bool
  | [], [] => true
  | (a, x) :: xs, (b, y) :: ys => a == b && x.same y && sameFields xs ys
  | _, _ => false

end

end Json

end ObjectStore
