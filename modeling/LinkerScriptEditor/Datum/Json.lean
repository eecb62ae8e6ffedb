import LinkerScriptEditor.Datum
import LinkerScriptEditor.Text.Integer

/-!
# JSON text of values

Values are read from JSON and written as JSON. Fields stay in the order of the text, and of two
fields of one name the later value counts. A number with a point or an exponent is fractional, and
fractional numbers that are not finite have names. JSON has one kind of sequence, so every
sequence is written as an array.
-/

namespace LinkerScriptEditor

namespace Json

def skipBlanks (text : List Char) : List Char := text.dropWhile [' ', '\n', '\r', '\t'].contains

def hexValue (c : Char) : Nat :=
  if c.isDigit then c.toNat - '0'.toNat
  else if 'a' ≤ c then c.toNat - 'a'.toNat + 10
  else c.toNat - 'A'.toNat + 10

def hexNumber (digits : List Char) : Nat := digits.foldl (fun n c => n * 16 + hexValue c) 0

/-- Bytes written as pairs of digits. -/
def hexBytes : List Char → List UInt8
  | a :: b :: rest => (hexNumber [a, b]).toUInt8 :: hexBytes rest
  | _ => []

def decimalNumber (digits : List Char) : Nat :=
  digits.foldl (fun n c => n * 10 + (c.toNat - '0'.toNat)) 0

/-- What a letter after a backslash stands for. -/
def unescape : Char → Char
  | 'n' => '\n'
  | 't' => '\t'
  | 'r' => '\r'
  | 'b' => '\x08'
  | 'f' => '\x0c'
  | c => c

def isHighHalf (n : Nat) : Bool := 0xd800 ≤ n && n < 0xdc00

def isLowHalf (n : Nat) : Bool := 0xdc00 ≤ n && n < 0xe000

/-- The character that two halves stand for. -/
def joinHalves (high low : Nat) : Char :=
  Char.ofNat (0x10000 + (high - 0xd800) * 0x400 + (low - 0xdc00))

/-- A quoted text without its first quotation mark, and what follows it. A first half of a
character is kept until its second half is read. -/
def readString (half : Option Nat) : List Char → Option (List Char × List Char)
  | '\x22' :: rest => some ([], rest)
  | '\\' :: 'u' :: a :: b :: c :: d :: rest =>
    let n := hexNumber [a, b, c, d]
    if isHighHalf n then readString (some n) rest
    else
      let c := match half with
        | some high => if isLowHalf n then joinHalves high n else Char.ofNat n
        | none => Char.ofNat n
      (readString none rest).map fun (s, rest) => (c :: s, rest)
  | '\\' :: c :: rest => (readString none rest).map fun (s, rest) => (unescape c :: s, rest)
  | c :: rest => (readString none rest).map fun (s, rest) => (c :: s, rest)
  | [] => none

def spanDigits (text : List Char) : List Char × List Char := text.span Char.isDigit

/-- The sign at the beginning of a text. -/
def readSign : List Char → Int × List Char
  | '-' :: rest => (-1, rest)
  | '+' :: rest => (1, rest)
  | rest => (1, rest)

/-- The digits after a point, if there is a point. -/
def readFraction : List Char → Option (List Char) × List Char
  | '.' :: rest => (some (spanDigits rest).1, (spanDigits rest).2)
  | rest => (none, rest)

/-- The exponent, if there is one. -/
def readExponent : List Char → Option Int × List Char
  | [] => (none, [])
  | c :: rest =>
    if c == 'e' || c == 'E' then
      let (sign, rest) := readSign rest
      let (digits, rest) := spanDigits rest
      (some (sign * decimalNumber digits), rest)
    else (none, c :: rest)

def infinity : UInt64 := 0x7ff0000000000000
def minusInfinity : UInt64 := 0xfff0000000000000
def notNumber : UInt64 := 0x7ff8000000000000

def readNumber (text : List Char) : Option (Datum × List Char) :=
  let (sign, rest) := readSign text
  let (whole, rest) := spanDigits rest
  let (fraction, rest) := readFraction rest
  let (exponent, rest) := readExponent rest
  if whole.isEmpty then none
  else if fraction.isNone && exponent.isNone then some (.int (sign * decimalNumber whole), rest)
  else
    let digits := fraction.getD []
    let scale := exponent.getD 0 - digits.length
    let size := Float.ofScientific (decimalNumber (whole ++ digits)) (scale < 0) scale.natAbs
    some (.float (if sign < 0 then -size else size).toBits, rest)

/-- What follows a name. -/
def stripName (name : String) (text : List Char) : Option (List Char) :=
  if name.toList.isPrefixOf text then some (text.drop name.length) else none

mutual

/-- A value and what follows it. The fuel bounds the depth and the length of what is read. -/
def readValue : Nat → List Char → Option (Datum × List Char)
  | 0, _ => none
  | fuel + 1, text =>
    match skipBlanks text with
    | '\x22' :: rest => (readString none rest).map fun (s, rest) => (.str (String.ofList s), rest)
    | '[' :: rest =>
      match skipBlanks rest with
      | ']' :: rest => some (.list [], rest)
      | rest => (readItems fuel rest).map fun (items, rest) => (.list items, rest)
    | '\x7b' :: rest =>
      match skipBlanks rest with
      | '\x7d' :: rest => some (.dict [], rest)
      | rest => (readFields fuel rest).map fun (fields, rest) =>
          (.dict (OrderedMap.putAll [] fields), rest)
    | 't' :: 'r' :: 'u' :: 'e' :: rest => some (.bool true, rest)
    | 'f' :: 'a' :: 'l' :: 's' :: 'e' :: rest => some (.bool false, rest)
    | 'n' :: 'u' :: 'l' :: 'l' :: rest => some (.null, rest)
    | 'N' :: 'a' :: 'N' :: rest => some (.float notNumber, rest)
    | rest =>
      match stripName "Infinity" rest, stripName "-Infinity" rest with
      | some rest, _ => some (.float infinity, rest)
      | none, some rest => some (.float minusInfinity, rest)
      | none, none => readNumber rest

/-- The items of an array that has some, up to its end. -/
def readItems : Nat → List Char → Option (List Datum × List Char)
  | 0, _ => none
  | fuel + 1, text => do
    let (item, rest) ← readValue fuel text
    match skipBlanks rest with
    | ']' :: rest => some ([item], rest)
    | ',' :: rest =>
      let (items, rest) ← readItems fuel rest
      some (item :: items, rest)
    | _ => none

/-- The fields of an object that has some, up to its end. -/
def readFields : Nat → List Char → Option (List (String × Datum) × List Char)
  | 0, _ => none
  | fuel + 1, text =>
    match skipBlanks text with
    | '\x22' :: rest => do
      let (key, rest) ← readString none rest
      match skipBlanks rest with
      | ':' :: rest =>
        let (value, rest) ← readValue fuel rest
        let field := (String.ofList key, value)
        match skipBlanks rest with
        | '\x7d' :: rest => some ([field], rest)
        | ',' :: rest =>
          let (fields, rest) ← readFields fuel rest
          some (field :: fields, rest)
        | _ => none
      | _ => none
    | _ => none

end

def escape (c : Char) : List Char :=
  if c == '\x22' || c == '\\' then ['\\', c]
  else if c.toNat < 32 then '\\' :: 'u' :: Quoted.hex 4 c.toNat
  else [c]

def quote (s : String) : String := String.ofList ('\x22' :: s.toList.flatMap escape ++ ['\x22'])

def fractional (bits : UInt64) : String :=
  if bits = infinity then "Infinity"
  else if bits = minusInfinity then "-Infinity"
  else if bits = notNumber then "NaN"
  else Decimal.text bits

end Json

namespace Datum

/-- Reads a text that holds one value. -/
def ofJson? (text : String) : Option Datum := do
  let (value, rest) ← Json.readValue (2 * text.length + 2) text.toList
  if (Json.skipBlanks rest).isEmpty then some value else none

mutual

/-- All its numbers are short enough to be written. -/
def isWritable : Datum → Bool
  | int n => Integer.isShort n
  | list items | tuple items | set items => areWritable items
  | dict fields => fieldsAreWritable fields
  | _ => true

def areWritable : List Datum → Bool
  | [] => true
  | item :: items => isWritable item && areWritable items

def fieldsAreWritable : List (String × Datum) → Bool
  | [] => true
  | (_, value) :: fields => isWritable value && fieldsAreWritable fields

end

mutual

def toJson : Datum → String
  | null => "null"
  | bool true => "true"
  | bool false => "false"
  | int n => toString n
  | float bits => Json.fractional bits
  | str s => Json.quote s
  | list items | tuple items | set items => "[" ++ ",".intercalate (allToJson items) ++ "]"
  | dict fields => "\x7b" ++ ",".intercalate (fieldsToJson fields) ++ "\x7d"

def allToJson : List Datum → List String
  | [] => []
  | item :: items => toJson item :: allToJson items

def fieldsToJson : List (String × Datum) → List String
  | [] => []
  | (key, value) :: fields => (Json.quote key ++ ":" ++ toJson value) :: fieldsToJson fields

end

end Datum

end LinkerScriptEditor
