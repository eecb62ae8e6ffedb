import LinkerScriptEditor.Text.CharClass

/-!
# Reading integers

An integer is an optional sign and digits of any decimal systems, with single low lines allowed
between digits and white space allowed around the whole. Texts of more than 4300 digits are
refused.
-/

namespace LinkerScriptEditor.Integer

/-- The most digits that a number has where it is read or written out. -/
def maxDigits : Nat := 4300

/-- The least number with too many digits. -/
def limit : Nat := Nat.pow 10 maxDigits

def isShort (n : Int) : Bool := n.natAbs < limit

def digits? : List Char → Option (List Nat)
  | [] => none
  | [c] => (CharClass.digit? c).map ([·])
  | c :: '_' :: rest => do
    let d ← CharClass.digit? c
    return d :: (← digits? rest)
  | c :: next :: rest => do
    let d ← CharClass.digit? c
    return d :: (← digits? (next :: rest))

def ofDigits (digits : List Nat) : Nat := digits.foldl (fun n d => 10 * n + d) 0

def magnitude? (text : List Char) : Option Nat := do
  let digits ← digits? text
  if digits.length ≤ maxDigits then some (ofDigits digits) else none

def parse? (text : String) : Option Int :=
  match CharClass.trimWhile CharClass.isSeparator text.toList with
  | '-' :: rest => (magnitude? rest).map fun n => -(n : Int)
  | '+' :: rest => (magnitude? rest).map fun n => (n : Int)
  | rest => (magnitude? rest).map fun n => (n : Int)

end LinkerScriptEditor.Integer
