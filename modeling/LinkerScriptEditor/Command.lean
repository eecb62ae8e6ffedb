import LinkerScriptEditor.Indent.Reindent
import LinkerScriptEditor.Numeral
import LinkerScriptEditor.Workspace

/-!
# Commands

The commands of the editor: editing at the cursor, moving it, and indenting. Each says whether the
key press is dealt with and what came of it.
-/

namespace LinkerScriptEditor

/-- What a key press came to: whether it is dealt with, which mode to go to, a status and a
message. A host may leave any of them open. -/
structure KeyResult where
  consumed : Option Bool
  switchTo : Option String
  status : Option String
  message : Option String
deriving DecidableEq

namespace KeyResult

def plain (status : String) : KeyResult := ⟨some true, none, some status, none⟩

def saying (status message : String) : KeyResult := ⟨some true, none, some status, some message⟩

def unbound : KeyResult := ⟨some false, none, some "unbound", none⟩

/-- What is left open counts as not dealt with. -/
def isConsumed (r : KeyResult) : Bool := r.consumed.getD false

end KeyResult

/-- What a handler hands back: a result of its own, or some other value. -/
inductive Outcome
  | result (r : KeyResult)
  | value (datum : Datum)

/-- A handler of another value counts as a key press that is dealt with. -/
def Outcome.toResult : Outcome → KeyResult
  | result r => r
  | value _ => .plain "ok"

/-- What runs an action. -/
abbrev Handler := Traced Workspace Outcome

namespace Command
open Workspace

/-- Deletes the character before the cursor, or the line break. -/
def deleteBackward : Traced Workspace KeyResult := do
  let b := (← get).buffer
  let p := b.cursor
  if 0 < p.column then
    let _ ← onBuffer (Buffer.deleteRange ⟨p.row, p.column - 1⟩ p)
    return .plain "delete_backward"
  else if 0 < p.row then
    let above ← Traced.ofExcept (b.document.line (p.row - 1))
    let _ ← onBuffer (Buffer.deleteRange ⟨p.row - 1, above.length⟩ ⟨p.row, 0⟩)
    return .plain "delete_backward"
  else
    return .plain "noop"

/-- Goes back or forth in the history. -/
def travel (status : String) (step : Buffer → Option Delta × Buffer) :
    Traced Workspace KeyResult := do
  let w ← get
  match step w.buffer with
  | (none, _) => return .saying "noop" s!"nothing to {status}"
  | (some delta, b) =>
    set { w with buffer := b }
    return .saying status delta.label

def undo : Traced Workspace KeyResult := travel "undo" Buffer.undo

def redo : Traced Workspace KeyResult := travel "redo" Buffer.redo

inductive Direction
  | left
  | right
  | up
  | down
deriving DecidableEq

/-- The neighbouring row, if there is one, and the largest column of it that is not past the old
one. -/
def moveRow (d : Document) (p : Position) (by_ : Int) : Except Fault Position := do
  let row := min (max (p.row + by_) 0) d.lastRow
  return ⟨row, min p.column (← d.line row).length⟩

/-- Where the cursor goes. To the left and to the right it goes on at the neighbouring line. -/
def move (d : Document) (p : Position) : Direction → Except Fault Position
  | .up => moveRow d p (-1)
  | .down => moveRow d p 1
  | .left =>
    if p.column ≠ 0 then .ok ⟨p.row, p.column - 1⟩
    else if 0 < p.row then return ⟨p.row - 1, (← d.line (p.row - 1)).length⟩
    else .ok p
  | .right => do
    if p.column ≠ (← d.line p.row).length then return ⟨p.row, p.column + 1⟩
    else if p.row < d.lastRow then return ⟨p.row + 1, 0⟩
    else return p

def moveCursor (direction : Direction) : Traced Workspace KeyResult := do
  let w ← get
  let p ← Traced.ofExcept (move w.buffer.document w.buffer.cursor direction)
  set { w with buffer := w.buffer.setCursor p }
  return .plain "move"

/-- Decides the column of a row, gives it to the row and tells the bus. -/
def indentRow (row : Int) : Traced Workspace Indent.Decision := do
  let unit ← onSettings Settings.readUnit
  let style ← onSettings Settings.readStyle
  let decision ← Traced.ofExcept ((← get).buffer.document.indentDecision style unit row)
  let _ ← onBuffer (Buffer.setIndentation row decision.column)
  emit "indent.line" (.dict
    [("row", .int row), ("column", .int decision.column), ("rule", .str decision.rule.name)])
  return decision

def indentLine : Traced Workspace KeyResult := do
  let row := (← get).buffer.cursor.row
  let handle := SpanHandle.ofData defaultLogger "indent::line" (some "indent") [("row", .int row)]
  let column ← Traced.span handle do
    let decision ← Traced.zoom Traced.workState (indentRow row)
    let column ← Numeral.write decision.column
    Traced.annotate "column" (.int decision.column)
    Traced.annotate "rule" (.str decision.rule.name)
    return column
  return .saying "indent_line" s!"indent {column}"

def newlineAndIndent : Traced Workspace KeyResult := do
  let _ ← onBuffer (Buffer.insertText ['\n'] none)
  indentLine

/-- The rows that the selection touches, or all rows. -/
def regionRows (b : Buffer) : Int × Int :=
  match b.selection with
  | some s => s.rows
  | none => (0, b.document.lastRow)

/-- Re-indents the rows of the region as one edit. -/
def indentRegion : Traced Workspace KeyResult := do
  let (first, last) := regionRows (← get).buffer
  let handle := SpanHandle.ofData defaultLogger "indent::region" (some "indent")
    [("first", .int first), ("last", .int last)]
  Traced.within handle do
    let unit ← onSettings Settings.readUnit
    let style ← onSettings Settings.readStyle
    let lines ← Traced.ofExcept
      (Indent.reindentBounded style unit (← get).buffer.document.lines first (some (last + 1)))
    let region := Document.slice lines first (last + 1)
    let _ ← onBuffer (Buffer.reindentRows first region "indent_region")
  emit "indent.region" (.dict [("first", .int first), ("last", .int last)])
  return .saying "indent_region" s!"indented {← Numeral.write (last - first + 1)} lines"

end Command

end LinkerScriptEditor
