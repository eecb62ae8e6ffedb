import LinkerScriptEditor.Text.CharTable

/-!
# Character classes

ASCII is decided by comparison, everything else by the tables. Upper-casing may give several
characters, so it maps a character to a list.
-/

namespace LinkerScriptEditor.CharClass

def isAscii (c : Char) : Bool := c.toNat < 128

def within (ranges : List (Nat × Nat)) (c : Char) : Bool :=
  ranges.any fun range => range.1 ≤ c.toNat && c.toNat ≤ range.2

def isAlphanumeric (c : Char) : Bool :=
  if isAscii c then c.isAlphanum else within CharTable.alphanumeric c

/-- Letters and numbers of every script, and the low line. -/
def isWord (c : Char) : Bool := c == '_' || isAlphanumeric c

def isPrintable (c : Char) : Bool :=
  if isAscii c then 32 ≤ c.toNat && c.toNat < 127 else within CharTable.printable c

/-- The white space that a terminal leaves out around a number. -/
def isSeparator (c : Char) : Bool :=
  if isAscii c then c == ' ' || (9 ≤ c.toNat && c.toNat ≤ 13) else within CharTable.space c

/-- White space; of the control characters also the four information separators. -/
def isSpace (c : Char) : Bool := isSeparator c || (28 ≤ c.toNat && c.toNat ≤ 31)

/-- The value of a digit of any decimal system. -/
def digit? (c : Char) : Option Nat :=
  if isAscii c then
    if c.isDigit then some (c.toNat - 48) else none
  else
    (CharTable.zeros.find? fun base => base ≤ c.toNat && c.toNat < base + 10).map (c.toNat - ·)

def upperRun? (c : Char) : Option Char :=
  (CharTable.upperRuns.find? fun run =>
    run.first ≤ c.toNat && c.toNat ≤ run.last && (c.toNat - run.first) % run.step == 0).map
    fun run => Char.ofNat (run.image + (c.toNat - run.first))

def upper (c : Char) : List Char :=
  if isAscii c then [c.toUpper]
  else match CharTable.upperLong.lookup c.toNat with
    | some codes => codes.map Char.ofNat
    | none => [(upperRun? c).getD c]

def upperText (text : String) : String := String.ofList (text.toList.flatMap upper)

/-- Lower-cases the letters of ASCII, which is enough to compare with words of ASCII letters that
have no `k`. -/
def lowerText (text : String) : String := String.ofList (text.toList.map Char.toLower)

/-- Drops the characters of a class from both ends. -/
def trimWhile (p : Char → Bool) (text : List Char) : List Char :=
  ((text.dropWhile p).reverse.dropWhile p).reverse

def trim (text : String) : String := String.ofList (trimWhile isSpace text.toList)

end LinkerScriptEditor.CharClass
