import LinkerScriptEditor.Decimal.Shortest
import LinkerScriptEditor.OrderedMap
import LinkerScriptEditor.Text.Quoted

/-!
# Data of hosts

Hosts hand over values of any shape: as settings, as payloads of events and as notes for the log.
A value has one printed form, in which texts are quoted.
-/

namespace LinkerScriptEditor

/-- A value from outside. Fractional numbers are kept as the bits of a double. -/
inductive Datum
  | null
  | bool (value : Bool)
  | int (value : Int)
  | float (bits : UInt64)
  | str (value : String)
  | list (items : List Datum)
  | tuple (items : List Datum)
  | set (items : List Datum)
  | dict (fields : List (String × Datum))

namespace Datum

def text? : Datum → Option String
  | str s => some s
  | _ => none

/-- Truth values count as numbers. -/
def int? : Datum → Option Int
  | int n => some n
  | bool b => some (if b then 1 else 0)
  | _ => none

/-- What counts as true: everything but zero and what is empty. -/
def isTrue : Datum → Bool
  | null => false
  | bool b => b
  | int n => n != 0
  | float bits => bits != 0 && bits != 0x8000000000000000
  | str s => s != ""
  | list items | tuple items | set items => !items.isEmpty
  | dict fields => !fields.isEmpty

def commas (items : List String) : String := ", ".intercalate items

mutual

/-- The printed form of a value. -/
def print : Datum → String
  | null => "None"
  | bool true => "True"
  | bool false => "False"
  | int n => toString n
  | float bits => Decimal.text bits
  | str s => Quoted.encode s
  | list items => "[" ++ commas (printAll items) ++ "]"
  | tuple [item] => "(" ++ print item ++ ",)"
  | tuple items => "(" ++ commas (printAll items) ++ ")"
  | set [] => "set()"
  | set items => "\x7b" ++ commas (printAll items) ++ "\x7d"
  | dict fields => "\x7b" ++ commas (printFields fields) ++ "\x7d"

def printAll : List Datum → List String
  | [] => []
  | item :: items => print item :: printAll items

def printFields : List (String × Datum) → List String
  | [] => []
  | (key, value) :: fields => (Quoted.encode key ++ ": " ++ print value) :: printFields fields

end

/-- What kind of value it is, in one word. -/
def kind : Datum → String
  | null => "NoneType"
  | bool _ => "bool"
  | int _ => "int"
  | float _ => "float"
  | str _ => "str"
  | list _ => "list"
  | tuple _ => "tuple"
  | set _ => "set"
  | dict _ => "dict"

/-- A value that can be in a set. -/
def isHashable : Datum → Bool
  | list _ | set _ | dict _ => false
  | _ => true

mutual

/-- One form for all values that are equal. Truth values are the numbers zero and one, and a
double without a fraction is its whole number. -/
def canonical : Datum → Datum
  | bool b => int (if b then 1 else 0)
  | float bits => ((Decimal.whole? bits).map int).getD (float bits)
  | tuple items => tuple (canonicalAll items)
  | other => other

def canonicalAll : List Datum → List Datum
  | [] => []
  | item :: items => canonical item :: canonicalAll items

end

def isSame (a b : Datum) : Bool := a.canonical.print == b.canonical.print

/-- The first of each kind of equal values. -/
def distinct (items : List Datum) : List Datum :=
  items.foldl (fun kept item => if kept.any (isSame item) then kept else kept ++ [item]) []

/-- The form in which a value is written to the log: texts stand for themselves. -/
def plain : Datum → String
  | str s => s
  | datum => print datum

def ofText? : Option String → Datum
  | none => null
  | some s => str s

def ofBool? : Option Bool → Datum
  | none => null
  | some b => bool b

def ofNat (n : Nat) : Datum := int n

def ofTexts (texts : List String) : Datum := list (texts.map str)

/-- The items of a list; other values have none. -/
def items : Datum → List Datum
  | list items => items
  | _ => []

/-- The fields of a dictionary; other values have none. -/
def fields : Datum → OrderedMap String Datum
  | dict fields => fields
  | _ => []

def field? (key : String) (datum : Datum) : Option Datum := OrderedMap.get? key datum.fields

/-- The fields that are texts. -/
def textFields (datum : Datum) : OrderedMap String String :=
  datum.fields.filterMap fun field => field.2.text?.map (field.1, ·)

/-- A field that is there and not null. -/
def given? (key : String) (datum : Datum) : Option Datum :=
  match datum.field? key with
  | some null => none
  | other => other

end Datum

end LinkerScriptEditor
