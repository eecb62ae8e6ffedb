import LinkerScriptEditor.Classification

/-!
# Styled text

A text with styles laid over ranges of its columns. Some control characters cannot be shown and
are left out of the text. A range is clipped to the text at its end; a negative bound counts once
from the end of the text.
-/

namespace LinkerScriptEditor

inductive TextStyle
  | category (c : Category)
  | comment
  | cursor
deriving DecidableEq

namespace TextStyle

def ofCategory : Category → String
  | .keyword => "bold magenta"
  | .builtin => "cyan"
  | .sectionName => "green"
  | .wildcard => "bold yellow"
  | .hexAddress => "blue"
  | .warning => "bold white on red"

/-- How a terminal shows the style. -/
def name : TextStyle → String
  | category c => ofCategory c
  | comment => "italic bright_black"
  | cursor => "reverse"

end TextStyle

/-- A style on the columns from `start` up to `stop`. -/
structure StyledSpan where
  start : Int
  stop : Int
  style : TextStyle
deriving DecidableEq

def StyledSpan.shift (offset : Nat) (s : StyledSpan) : StyledSpan :=
  { s with start := s.start + offset, stop := s.stop + offset }

/-- The characters shown and the styles, in the order in which they were laid. -/
structure StyledText where
  plain : List Char
  spans : List StyledSpan
deriving DecidableEq

namespace StyledText

/-- The bell, the backspace, the vertical tab, the form feed and the carriage return. -/
def isHidden (c : Char) : Bool := [7, 8, 11, 12, 13].contains c.toNat

def shown (text : List Char) : List Char := text.filter fun c => !isHidden c

def ofLine (line : Line) : StyledText := ⟨shown line, []⟩

/-- A bound counted from the end if it is negative. -/
def fromEnd (length : Nat) (bound : Int) : Int := if bound < 0 then bound + length else bound

/-- Lays a style over a range, unless the range is empty or begins past the text. -/
def stylize (style : TextStyle) (start stop : Int) (t : StyledText) : StyledText :=
  let length := t.plain.length
  let start := fromEnd length start
  let stop := fromEnd length stop
  if length ≤ start ∨ stop ≤ start then t
  else { t with spans := t.spans ++ [⟨start, min length stop, style⟩] }

/-- Adds characters in a style. -/
def append (text : List Char) (style : TextStyle) (t : StyledText) : StyledText :=
  if text.isEmpty then t
  else
    let more := shown text
    let length := t.plain.length
    ⟨t.plain ++ more, t.spans ++ [⟨length, (length + more.length : Nat), style⟩]⟩

/-- Lines with one line feed between each two. -/
def join : List StyledText → StyledText
  | [] => ⟨[], []⟩
  | [t] => t
  | t :: next :: rest =>
    let tail := join (next :: rest)
    ⟨t.plain ++ '\n' :: tail.plain, t.spans ++ tail.spans.map (.shift (t.plain.length + 1))⟩

end StyledText

end LinkerScriptEditor
