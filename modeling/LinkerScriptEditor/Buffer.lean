import LinkerScriptEditor.Document
import LinkerScriptEditor.History
import LinkerScriptEditor.Log.Traced
import LinkerScriptEditor.Margin

/-!
# Buffers

A buffer is the document being edited with its cursor, its selection and its history. Every edit
is checked first, then made inside a span of the log and recorded for undo. The cursor and the
selection are the host's to set and are not checked until an edit uses them.
-/

namespace LinkerScriptEditor

/-- Two positions, in either order. -/
structure Selection where
  anchor : Position
  point : Position
deriving DecidableEq

/-- The first and the last row that a selection touches. -/
def Selection.rows (s : Selection) : Int × Int :=
  (min s.anchor.row s.point.row, max s.anchor.row s.point.row)

structure Buffer where
  name : Option String
  path : Option String
  document : Document
  cursor : Position
  selection : Option Selection
  changeTick : Nat
  history : History

/-- What an edit left behind. -/
structure Delta where
  version : Nat
  text : List Char
  cursor : Position
  selection : Option Selection
  label : String

/-- What a host sees of a buffer, with attributes of the host's. -/
structure HostView where
  text : List Char
  cursor : Position
  selection : Option Selection
  version : Nat
  attributes : OrderedMap String Datum

namespace Buffer

/-- A buffer on a document that nobody has edited yet. -/
def ofDocument (name path : Option String) (d : Document) : Buffer :=
  ⟨name, path, d, ⟨0, 0⟩, none, 0, .empty⟩

def ofText (name path : Option String) (text : List Char) : Buffer :=
  ofDocument name path (.ofText text)

def text (b : Buffer) : List Char := b.document.text

def setCursor (p : Position) (b : Buffer) : Buffer := { b with cursor := p }

def select (s : Option Selection) (b : Buffer) : Buffer := { b with selection := s }

def markSaved (b : Buffer) : Buffer := { b with document := b.document.markSaved }

def clearHistory (b : Buffer) : Buffer := { b with history := b.history.clear }

def delta (label : String) (b : Buffer) : Delta :=
  ⟨b.document.version, b.text, b.cursor, b.selection, label⟩

def hostView (attributes : OrderedMap String Datum) (b : Buffer) : HostView :=
  ⟨b.text, b.cursor, b.selection, b.document.version, attributes⟩

/-- The span around an edit. -/
def editSpan (label : String) (b : Buffer) : SpanHandle :=
  let name := s!"buffer::{label}"
  .ofData defaultLogger name (some name) [("buffer", .ofText? b.name)]

/-- Records the step from one state of the buffer to the next as an edit. -/
def commit (label : String) (before after : Buffer) : Buffer :=
  { after with
    changeTick := after.document.version
    history := after.history.push
      ⟨label, before.text, after.text, before.cursor, after.cursor⟩ }

/-- Makes a change and records it. -/
def edit (label : String) (change : Buffer → Buffer) : Traced Buffer Delta := do
  let b ← get
  Traced.within (b.editSpan label) (set (commit label b (change b)))
  return (← get).delta label

/-- Puts a text in the place of what lies between two places in reading order. The cursor ends
after the text. -/
def splice (start stop : Place) (text : List Char) (b : Buffer) : Buffer :=
  let tail := (b.document.lineAt stop.row).drop stop.column
  let merged := (b.document.lineAt start.row).take start.column ++ text ++ tail
  let pieces := splitLines merged
  let row := start.row + pieces.length - 1
  { b with
    document := b.document.update start.row (stop.row + 1 : Nat) pieces
    cursor := ⟨row, ((pieces.getLastD []).length : Int) - tail.length⟩ }

/-- Two positions in either order, checked and put into reading order. -/
def places (start stop : Position) (b : Buffer) : Except Fault (Place × Place) := do
  let first ← b.document.checkPosition start
  let second ← b.document.checkPosition stop
  return first.sorted second

def replaceRange (start stop : Position) (text : List Char) (label : String) :
    Traced Buffer Delta := do
  let (first, second) ← Traced.ofExcept ((← get).places start stop)
  edit label (splice first second text)

/-- Inserts at a position, or at the cursor. -/
def insertText (text : List Char) (at? : Option Position) : Traced Buffer Delta := do
  let p := at?.getD (← get).cursor
  replaceRange p p text "insert_text"

def deleteRange (start stop : Position) : Traced Buffer Delta :=
  replaceRange start stop [] "delete_range"

/-- The text between two places in reading order. -/
def textBetween (start stop : Place) (b : Buffer) : List Char :=
  let first := b.document.lineAt start.row
  let last := b.document.lineAt stop.row
  if start.row = stop.row then (first.take stop.column).drop start.column
  else joinLines (first.drop start.column ::
    (b.document.lines.take stop.row).drop (start.row + 1) ++ [last.take stop.column])

def textRange (start stop : Position) (b : Buffer) : Except Fault (List Char) :=
  return b.textBetween.uncurry (← b.places start stop)

/-- Where the cursor goes when the indentation of its line changes: from inside the indentation to
the text, from anywhere else along with the text. -/
def followColumn (before after : Line) (column : Int) : Int :=
  let old := Line.indentation before
  let new := Line.indentation after
  min (if column < old then (new : Int) else column + new - old) after.length

/-- Overwrites the rows from a given one on. The cursor keeps to its text. -/
def overwrite (start : Nat) (new : List Line) (b : Buffer) : Buffer :=
  let document := b.document.update start (start + new.length : Nat) new
  let row := b.cursor.row
  { b with
    document
    cursor := if start ≤ row ∧ row < start + new.length then
        let before := b.document.lineAt row.toNat
        ⟨row, followColumn before (document.lineAt row.toNat) b.cursor.column⟩
      else b.cursor }

/-- Overwrites rows as one edit, unless nothing would change. Only the indentation of the rows is
expected to differ. -/
def reindentRows (start : Int) (new : List Line) (label : String) : Traced Buffer Delta := do
  let b ← get
  let first ← Traced.ofExcept (b.document.checkRow start)
  let _ ← Traced.ofExcept (b.document.checkRow (start + new.length - 1))
  if (b.document.lines.take (first + new.length)).drop first = new then
    return b.delta label
  else
    edit label (overwrite first new)

/-- Gives a row a number of leading spaces; negative numbers count as zero. -/
def setIndentation (row width : Int) : Traced Buffer Delta := do
  let b ← get
  let r ← Traced.ofExcept (b.document.checkRow row)
  let margin ← Traced.ofExcept (Margin.write width)
  reindentRows row [margin ++ Line.body (b.document.lineAt r)] "set_indentation"

/-- Goes to a text and a cursor of the history. -/
def restore (text : List Char) (cursor : Position) (history : History) (b : Buffer) : Buffer :=
  let document := b.document.replace (splitLines text)
  { b with document, cursor, history, changeTick := document.version }

def undo (b : Buffer) : Option Delta × Buffer :=
  match b.history.undo? with
  | none => (none, b)
  | some (e, history) =>
    let b := b.restore e.textBefore e.cursorBefore history
    (some (b.delta s!"undo:{e.label}"), b)

def redo (b : Buffer) : Option Delta × Buffer :=
  match b.history.redo? with
  | none => (none, b)
  | some (e, history) =>
    let b := b.restore e.textAfter e.cursorAfter history
    (some (b.delta s!"redo:{e.label}"), b)

end Buffer

end LinkerScriptEditor
