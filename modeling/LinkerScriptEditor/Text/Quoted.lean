import LinkerScriptEditor.Text.CharClass

/-!
# Quoted text

A text is quoted with apostrophes, or with quotation marks if it holds an apostrophe and no
quotation mark. The mark in use, the backslash and what cannot be printed are escaped.
-/

namespace LinkerScriptEditor.Quoted

def apostrophe : Char := '\x27'
def quotation : Char := '\x22'

def mark (text : List Char) : Char :=
  if text.contains apostrophe && !text.contains quotation then quotation else apostrophe

/-- Hexadecimal digits, padded with zeros to a width. -/
def hex (width n : Nat) : List Char :=
  let digits := Nat.toDigits 16 n
  List.replicate (width - digits.length) '0' ++ digits

def escape (mark c : Char) : List Char :=
  if c == mark || c == '\\' then ['\\', c]
  else if c == '\n' then ['\\', 'n']
  else if c == '\r' then ['\\', 'r']
  else if c == '\t' then ['\\', 't']
  else if CharClass.isPrintable c then [c]
  else if c.toNat ≤ 0xff then '\\' :: 'x' :: hex 2 c.toNat
  else if c.toNat ≤ 0xffff then '\\' :: 'u' :: hex 4 c.toNat
  else '\\' :: 'U' :: hex 8 c.toNat

def encode (text : String) : String :=
  let m := mark text.toList
  String.ofList (m :: text.toList.flatMap (escape m) ++ [m])

end LinkerScriptEditor.Quoted
