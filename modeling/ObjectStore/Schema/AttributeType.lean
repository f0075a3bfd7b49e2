import ObjectStore.Value.Order

/-!
This module contains the types of attributes and the casts into them. Every type holds null.
-/

namespace ObjectStore

inductive AttributeType where
  | text
  | integer
  | number
  | boolean
  | day
  | datetime
  | list
  | json
deriving DecidableEq, Repr

/-- A value that a type does not hold, in words. The target is the attribute that the value was
meant for, or empty. -/
structure CastError where
  target : String
  expected : AttributeType
  value : String
deriving DecidableEq, Repr

namespace AttributeType

def name : AttributeType → String
  | text => "text"
  | integer => "integer"
  | number => "number"
  | boolean => "boolean"
  | day => "day"
  | datetime => "datetime"
  | list => "list"
  | json => "json"

def all : List AttributeType :=
  [text, integer, number, boolean, day, datetime, list, json]

def castText? : Value → Option Value
  | .string s => some (.string s)
  | .int i => some (.string (String.ofList (Decimal.signedDigits i.toInt)))
  | .float x => some (.string x.plainText)
  | .bool b => some (.string (if b then "true" else "false"))
  | .day d => some (.string d.text)
  | .timestamp t => some (.string t.text)
  | _ => none

def int64? (i : Int) : Option Int64 :=
  if -0x8000000000000000 ≤ i ∧ i < 0x8000000000000000 then some (Int64.ofInt i) else none

def castInteger? : Value → Option Value
  | .int i => some (.int i)
  | .float x => (x.toInt?.bind int64?).map .int
  | .string s => ((Decimal.readInt? (Text.trim s.toList)).bind int64?).map .int
  | _ => none

def castNumber? : Value → Option Value
  | .int i => some (.float (Binary64.ofInt i.toInt))
  | .float x => if x.isFinite then some (.float x) else none
  | .string s => ((Binary64.read? (Text.trim s.toList)).filter (·.isFinite)).map .float
  | _ => none

def castBoolean? : Value → Option Value
  | .bool b => some (.bool b)
  | .int i => if i = 0 then some (.bool false) else if i = 1 then some (.bool true) else none
  | .string s =>
    let word := String.ofList (s.toList.map Char.toLower)
    if word = "true" then some (.bool true)
    else if word = "false" then some (.bool false)
    else none
  | _ => none

def castDay? : Value → Option Value
  | .day d => some (.day d)
  | .timestamp t => some (.day t.day)
  | .string s => (Day.read? s).map .day
  | _ => none

def castDatetime? : Value → Option Value
  | .timestamp t => some (.timestamp t)
  | .day d => some (.timestamp (Timestamp.startOf d))
  | .string s => (Timestamp.read? s).map .timestamp
  | _ => none

def castList? : Value → Option Value
  | .array items => some (.array items)
  | .json (.array items) => some (.array (Value.ofJsonItems items))
  | _ => none

def castJson? : Value → Option Value
  | .json document => some (.json document)
  | v => some (.json v.toJson)

def castSome? : AttributeType → Value → Option Value
  | text => castText?
  | integer => castInteger?
  | number => castNumber?
  | boolean => castBoolean?
  | day => castDay?
  | datetime => castDatetime?
  | list => castList?
  | json => castJson?

/-- Casts a value into a type. Null stays null. -/
def cast (ty : AttributeType) (v : Value) : Except CastError Value :=
  if v.isNull then
    .ok .null
  else
    match castSome? ty v with
    | some w => .ok w
    | none => .error ⟨"", ty, v.text⟩

/-- Reads the stored form of a value. Documents are taken as they are. -/
def decode (ty : AttributeType) (document : Json) : Except CastError Value :=
  if ty = json ∧ document.isNull = false then
    .ok (.json document)
  else
    ty.cast (Value.ofJson document)

@[simp]
theorem cast_null (ty : AttributeType) : ty.cast .null = .ok .null := rfl

end AttributeType

namespace CastError

def forAttribute (e : CastError) (name : String) : CastError :=
  { e with target := name }

def message (e : CastError) : String :=
  s!"cannot cast {e.value} to {e.expected.name} for attribute '{e.target}'"

end CastError

end ObjectStore
