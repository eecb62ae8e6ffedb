import LinkerScriptEditor.Document
import LinkerScriptEditor.Span

/-!
# Comments

A comment runs from `/*` to the next `*/`, over as many lines as it takes, and does not nest. One
pass over a line, started inside or outside a comment, gives the columns that comments cover and
the state in which the next line starts. Whether a position is inside a comment follows from these
passes.
-/

namespace LinkerScriptEditor

namespace Comment

def opening : String := "/*"
def closing : String := "*/"

/-- Scans on from a column. Inside a comment, `opened` is the column at which it began. The result
is the comments on the line and whether its end is inside one. -/
def scan : Nat → Option Nat → Line → List Span × Bool
  | column, some start, '*' :: '/' :: rest =>
    let (spans, inside) := scan (column + 2) none rest
    (⟨start, column + 2⟩ :: spans, inside)
  | column, some start, _ :: rest => scan (column + 1) (some start) rest
  | column, some start, [] => ([⟨start, column⟩], true)
  | column, none, '/' :: '*' :: rest => scan (column + 2) (some column) rest
  | column, none, _ :: rest => scan (column + 1) none rest
  | _, none, [] => ([], false)

/-- Scans a whole line that starts inside or outside a comment. -/
def scanLine (inside : Bool) (line : Line) : List Span × Bool :=
  scan 0 (if inside then some 0 else none) line

def spans (inside : Bool) (line : Line) : List Span := (scanLine inside line).1

def endsInside (inside : Bool) (line : Line) : Bool := (scanLine inside line).2

/-- Whether a row starts inside a comment. -/
def startsInside (lines : List Line) (row : Nat) : Bool := (lines.take row).foldl endsInside false

/-- Whether a column of a line is inside a comment; the end of the line is if the comment goes on.
-/
def insideAt (inside : Bool) (line : Line) (column : Nat) : Bool :=
  if line.length ≤ column then endsInside inside line
  else (spans inside line).any (·.covers column)

/-- A line with every character of a comment replaced by a space. -/
def blankOut (inside : Bool) (line : Line) : Line :=
  let comments := spans inside line
  line.mapIdx fun column c => if comments.any (·.covers column) then ' ' else c

/-- Whether a place of a document is inside a comment. -/
def isInside (lines : List Line) (place : Place) : Bool :=
  insideAt (startsInside lines place.row) (lines.getD place.row []) place.column

/-- A row of a document without its comments. -/
def visible (lines : List Line) (row : Nat) : Line :=
  blankOut (startsInside lines row) (lines.getD row [])

end Comment

namespace Document

def isInsideComment (d : Document) (p : Position) : Except Fault Bool :=
  return Comment.isInside d.lines (← d.checkPosition p)

def commentSpans (d : Document) (row : Int) : Except Fault (List Span) := do
  let row ← d.checkRow row
  return Comment.spans (Comment.startsInside d.lines row) (d.lineAt row)

end Document

end LinkerScriptEditor
