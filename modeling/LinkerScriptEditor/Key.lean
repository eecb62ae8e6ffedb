import LinkerScriptEditor.Fault
import LinkerScriptEditor.Text.CharClass
import LinkerScriptEditor.Text.Line

/-!
# Keys

A token names a key with its modifiers, joined by plus signs. In its normal form the modifiers are
upper-case, sorted and without repetition. A token that ends in a plus sign is left as it is. A
key sequence is a chain of normal tokens.
-/

namespace LinkerScriptEditor

namespace Token

def isBefore (a b : List Char) : Bool := !List.lex b a fun c d => decide (c < d)

/-- Modifiers in normal form; blank ones are dropped. -/
def canonical (modifiers : List (List Char)) : List (List Char) :=
  let names := (modifiers.map (CharClass.trimWhile CharClass.isSpace)).filter (!·.isEmpty)
  ((names.map (·.flatMap CharClass.upper)).eraseDups).mergeSort isBefore

def normalize (token : String) : String :=
  match (splitOn '+' token.toList).reverse with
  | key :: modifier :: modifiers =>
    if key.isEmpty then token
    else String.ofList (joinWith '+' (canonical (modifier :: modifiers).reverse ++ [key]))
  | _ => token

end Token

/-- A chain of tokens in normal form. -/
structure KeySequence where
  tokens : List String
deriving DecidableEq

namespace KeySequence

def ofTokens (tokens : List String) : Except Fault KeySequence :=
  if tokens.isEmpty then .error .emptySequence else .ok ⟨tokens.map Token.normalize⟩

/-- Empty texts are left out. -/
def ofKeys (keys : List String) : Except Fault KeySequence := ofTokens (keys.filter (· != ""))

def signature (s : KeySequence) : String := " ".intercalate s.tokens

end KeySequence

/-- A key press: a key name or a character, the modifiers held, and what it would type, if
anything. -/
structure KeyPress where
  key : String
  modifiers : List String
  text : Option String

namespace KeyPress

def token (press : KeyPress) : String :=
  if press.modifiers.isEmpty then press.key
  else Token.normalize ("+".intercalate (press.modifiers ++ [press.key]))

def isShift (modifier : String) : Bool := CharClass.upperText modifier == "SHIFT"

def printableText (text : String) : Bool := text.toList.all CharClass.isPrintable

/-- Whether the press types something: printable text or a tab, with no modifier but shift. -/
def isPrintable (press : KeyPress) : Bool :=
  match press.text with
  | none => false
  | some text =>
    text != "" && press.modifiers.all isShift && (text == "\t" || printableText text)

/-- The names that a terminal gives to keys, and ours. -/
def terminalNames : OrderedMap String String :=
  [("escape", "ESC"), ("enter", "ENTER"), ("return", "ENTER"), ("tab", "TAB"),
    ("backspace", "BACKSPACE"), ("left", "LEFT"), ("right", "RIGHT"), ("up", "UP"),
    ("down", "DOWN"), ("backslash", "\\"), ("space", " ")]

/-- The parts of a key name between plus signs; the plus sign alone is a name. -/
def terminalParts (key : String) : List (List Char) :=
  if key = "+" then [['+']] else splitOn '+' key.toList

/-- The key press that a terminal reports by a name and perhaps a character. A printable character
with at most the shift key is a press of that character. -/
def ofTerminal (key : String) (character : Option String) : KeyPress :=
  let parts := terminalParts key
  let modifiers := parts.dropLast.map fun part => CharClass.upperText (String.ofList part)
  let name := String.ofList (parts.getLastD [])
  let named : KeyPress :=
    ⟨(OrderedMap.get? name terminalNames).getD name, modifiers, none⟩
  match character with
  | none => named
  | some c =>
    if c != "" && printableText c && modifiers.all (· == "SHIFT") then ⟨c, [], some c⟩ else named

end KeyPress

end LinkerScriptEditor
