import ObjectStore.Calendar.Writer
import ObjectStore.Json
import ObjectStore.Text.Outline

/-!
This module contains the values of attributes and of filter operands, and how they are carried over
to JSON documents and back.
-/

namespace ObjectStore

inductive Value where
  | null
  | bool (b : Bool)
  | int (i : Int64)
  | float (x : Binary64)
  | string (s : String)
  | day (d : Day)
  | timestamp (t : Timestamp)
  | array (items : List Value)
  | json (document : Json)
deriving Repr

namespace Value

instance : Inhabited Value := ⟨null⟩

def isNull : Value → Bool
  | null => true
  | _ => false

def isNumber : Value → Bool
  | int _ | float _ => true
  | _ => false

/-- The number as a float. Integers are rounded. -/
def float? : Value → Option Binary64
  | int i => some (Binary64.ofInt i.toInt)
  | float x => some x
  | _ => none

def int? : Value → Option Int64
  | int i => some i
  | _ => none

def string? : Value → Option String
  | string s => some s
  | _ => none

def array? : Value → Option (List Value)
  | array items => some items
  | _ => none

def kind : Value → String
  | null => "null"
  | bool _ => "boolean"
  | int _ => "integer"
  | float _ => "number"
  | string _ => "string"
  | day _ => "day"
  | timestamp _ => "datetime"
  | array _ => "array"
  | json _ => "json"

/-- The value of a number in a document. Integers beyond 63 bits become floats. -/
def ofJsonNumber : JsonNumber → Value
  | .int i .. => if i < 0x8000000000000000 then int (Int64.ofInt i) else float (Binary64.ofInt i)
  | .float x _ => float x

mutual

/-- Reads a document without knowing a type. Strings stay strings, and objects stay documents. -/
def ofJson : Json → Value
  | .null => null
  | .bool b => bool b
  | .number n => ofJsonNumber n
  | .string s => string s
  | .array items => array (ofJsonItems items)
  | .object fields => json (.object fields)

def ofJsonItems : List Json → List Value
  | [] => []
  | item :: items => ofJson item :: ofJsonItems items

end

mutual

/-- The document for a value. What is no finite number becomes null. -/
def toJson : Value → Json
  | null => .null
  | bool b => .bool b
  | int i => .number (.int i.toInt i.le_toInt (Int.lt_trans i.toInt_lt (by decide)))
  | float x => (JsonNumber.ofFloat? x).elim .null .number
  | string s => .string s
  | day d => .string d.text
  | timestamp t => .string t.text
  | array items => .array (toJsonItems items)
  | json document => document

def toJsonItems : List Value → List Json
  | [] => []
  | item :: items => toJson item :: toJsonItems items

end

def text : Value → String
  | string s => Text.quoted s
  | v => v.toJson.text

mutual

/-- Equality of content. Floats are compared numerically: both zeros are equal, and what is no
number differs from itself. -/
def same : Value → Value → Bool
  | null, null => true
  | bool a, bool b => a == b
  | int i, int j => i == j
  | float x, float y => x.same y
  | string s, string t => s == t
  | day c, day d => c == d
  | timestamp t, timestamp u => t == u
  | array xs, array ys => sameItems xs ys
  | json a, json b => a.same b
  | _, _ => false

def sameItems : List Value → List Value → Bool
  | [], [] => true
  | x :: xs, y :: ys => x.same y && sameItems xs ys
  | _, _ => false

end

end Value

end ObjectStore
