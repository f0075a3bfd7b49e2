import ObjectStore.Text.Basic
import ObjectStore.Text.HiddenRanges

/-!
This module writes texts for people who look at them. A quoted text stands between double quotes, with
nothing invisible in it. Outlines show structures: a name with labelled fields in braces, lists in
square brackets, and sets in braces. Both are on one line.
-/

namespace ObjectStore.Text

def hexDigits (n : Nat) : List Char :=
  Nat.toDigits 16 n

def quoteChar (c : Char) : List Char :=
  match c with
  | '"' => ['\\', '"']
  | '\\' => ['\\', '\\']
  | '\n' => ['\\', 'n']
  | '\r' => ['\\', 'r']
  | '\t' => ['\\', 't']
  | '\x00' => ['\\', '0']
  | _ =>
    if c.toNat < 0x20 || (0x7F ≤ c.toNat && inRanges hiddenRanges c) then
      ['\\', 'u', '\x7b'] ++ hexDigits c.toNat ++ ['\x7d']
    else
      [c]

/-- The text between quotes. Quotes and backslashes get a backslash, and characters that have no
shape of their own are written by number. -/
def quoted (s : String) : String :=
  String.ofList ('"' :: s.toList.flatMap quoteChar ++ ['"'])

def commas (items : List String) : String :=
  ", ".intercalate items

/-- The outline of a structure. An open one has fields that are not shown. -/
def outline (name : String) (fields : List (String × String)) ( isOpen : Bool) : String :=
  let fields := fields.map fun (label, text) => s!"{label}: {text}"
  let items := commas (if isOpen then fields ++ [".."] else fields)
  s!"{name} \x7b {items} \x7d"

def listOutline (items : List String) : String :=
  s!"[{commas items}]"

def setOutline (items : List String) : String :=
  s!"\x7b{commas items}\x7d"

def boolOutline (b : Bool) : String :=
  if b then "true" else "false"

def optionOutline : Option String → String
  | some text => s!"Some({text})"
  | none => "None"

end ObjectStore.Text
