import LinkerScriptEditor.Fault
import LinkerScriptEditor.Text.Line

/-!
# Documents

A document is a snapshot: a list of lines with a version number and a mark for unsaved changes. A
change makes a new document, one version higher. Rows and positions that come from outside are
checked once and turn into natural numbers that are known to be in range.
-/

namespace LinkerScriptEditor

structure Document where
  lines : List Line
  version : Nat
  dirty : Bool
deriving DecidableEq

namespace Document

/-- A document has at least one line. -/
def atLeastOne (lines : List Line) : List Line := if lines.isEmpty then [[]] else lines

/-- The document with one empty line. -/
def blank : Document := ⟨[[]], 0, false⟩

def ofLines (lines : List Line) : Document := ⟨atLeastOne lines, 0, false⟩

/-- The lines of a text, without the carriage returns at their ends. -/
def ofText (text : List Char) : Document := ⟨(splitLines text).map Line.dropReturns, 0, false⟩

def text (d : Document) : List Char := joinLines d.lines

def lineCount (d : Document) : Nat := d.lines.length

def lastRow (d : Document) : Int := (d.lineCount : Int) - 1

def replace (d : Document) (lines : List Line) : Document :=
  ⟨atLeastOne lines, d.version + 1, true⟩

def markSaved (d : Document) : Document := { d with dirty := false }

/-- A bound of a range of rows: negative ones count from the end, and all are brought into range.
-/
def bound (length : Nat) (i : Int) : Nat :=
  if i < 0 then (i + length).toNat else min i.toNat length

/-- The rows from `start` up to `stop`. -/
def slice (lines : List Line) (start stop : Int) : List Line :=
  let first := bound lines.length start
  (lines.take (bound lines.length stop)).drop first

/-- New lines in the place of the rows from `start` up to `stop`. -/
def splice (lines : List Line) (start stop : Int) (new : List Line) : List Line :=
  let first := bound lines.length start
  lines.take first ++ new ++ lines.drop (max first (bound lines.length stop))

def update (d : Document) (start stop : Int) (new : List Line) : Document :=
  d.replace (splice d.lines start stop new)

/-- The line of a row that is known to exist. -/
def lineAt (d : Document) (row : Nat) : Line := d.lines.getD row []

def line (d : Document) (row : Int) : Except Fault Line :=
  if 0 ≤ row ∧ row < d.lineCount then .ok (d.lineAt row.toNat) else .error (.noLine row)

def checkRow (d : Document) (row : Int) : Except Fault Nat :=
  if 0 ≤ row ∧ row < d.lineCount then .ok row.toNat else .error (.rowOutside row d.lastRow)

/-- A position is valid if its row exists and its column is not past the end of the line. -/
def checkPosition (d : Document) (p : Position) : Except Fault Place :=
  if 0 ≤ p.row ∧ p.row < d.lineCount then
    let width := (d.lineAt p.row.toNat).length
    if 0 ≤ p.column ∧ p.column ≤ width then .ok ⟨p.row.toNat, p.column.toNat⟩
    else .error (.columnOutside p width)
  else .error (.rowMissing p)

def indentation (d : Document) (row : Int) : Except Fault Nat :=
  return Line.indentation (← d.line row)

/-- The first character of a row that is not a blank; the end of the line if there is none. -/
def firstNonblank (d : Document) (row : Int) : Except Fault Position :=
  return ⟨row, ← d.indentation row⟩

def body (d : Document) (row : Int) : Except Fault Line := return Line.body (← d.line row)

theorem text_replace (d : Document) {lines : List Line} (h : lines ≠ []) :
    (d.replace lines).text = joinLines lines := by
  cases lines with
  | nil => exact absurd rfl h
  | cons line lines => rfl

end Document

end LinkerScriptEditor
