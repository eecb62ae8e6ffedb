import LinkerScriptEditor.Comment

/-!
# Comment trackers

A tracker answers questions about comments without scanning the same rows again. It remembers, for
the rows of one snapshot that it has passed, whether they start inside a comment, and forgets them
when it is asked about another snapshot.
-/

namespace LinkerScriptEditor

/-- What tells snapshots apart: an identity and a version. -/
structure SnapshotKey where
  id : Nat
  version : Nat
deriving DecidableEq

/-- A document that has an identity. -/
structure Snapshot where
  id : Nat
  document : Document

def Snapshot.key (s : Snapshot) : SnapshotKey := ⟨s.id, s.document.version⟩

def Snapshot.rows (s : Snapshot) : Array Line := s.document.lines.toArray

/-- For each row passed so far, whether it starts inside a comment. -/
structure Tracker where
  snapshot : Option SnapshotKey
  marks : Array Bool
deriving DecidableEq

namespace Tracker

def fresh : Tracker := ⟨none, #[false]⟩

/-- Drops the marks of any other snapshot. -/
def sync (key : SnapshotKey) (t : Tracker) : Tracker :=
  if t.snapshot = some key then t else ⟨some key, #[false]⟩

/-- Passes a number of further rows. -/
def pass (rows : Array Line) : Nat → Array Bool → Array Bool
  | 0, marks => marks
  | n + 1, marks =>
    let last := marks.size - 1
    pass rows n (marks.push (Comment.endsInside (marks.getD last false) (rows.getD last [])))

/-- Passes as many rows as it takes to have a mark for a row. -/
def reach (rows : Array Line) (row : Nat) (marks : Array Bool) : Array Bool :=
  pass rows (row + 1 - marks.size) marks

def startsInside (key : SnapshotKey) (rows : Array Line) (row : Nat) : StateM Tracker Bool := do
  let t ← get
  let marks := reach rows row (t.sync key).marks
  set (Tracker.mk (some key) marks)
  return marks.getD row false

def spans (key : SnapshotKey) (rows : Array Line) (row : Nat) : StateM Tracker (List Span) :=
  return Comment.spans (← startsInside key rows row) (rows.getD row [])

def isInside (key : SnapshotKey) (rows : Array Line) (place : Place) : StateM Tracker Bool :=
  return Comment.insideAt (← startsInside key rows place.row) (rows.getD place.row [])
    place.column

def visible (key : SnapshotKey) (rows : Array Line) (row : Nat) : StateM Tracker Line :=
  return Comment.blankOut (← startsInside key rows row) (rows.getD row [])

end Tracker

namespace Snapshot

/-- A question to a tracker that may be refused; a refusal leaves the tracker as it was. -/
abbrev Query := ExceptT Fault (StateM Tracker)

def startsInside (s : Snapshot) (row : Int) : Query Bool := do
  let row ← s.document.checkRow row
  Tracker.startsInside s.key s.rows row

def commentSpans (s : Snapshot) (row : Int) : Query (List Span) := do
  let row ← s.document.checkRow row
  Tracker.spans s.key s.rows row

def isInsideComment (s : Snapshot) (p : Position) : Query Bool := do
  let place ← s.document.checkPosition p
  Tracker.isInside s.key s.rows place

def visible (s : Snapshot) (row : Int) : Query Line := do
  let _ ← s.document.line row
  let row ← s.document.checkRow row
  Tracker.visible s.key s.rows row

/-- For every row, which of its columns are inside a comment. The last is the end of the row. -/
def commentMap (s : Snapshot) : Query (List (List Bool)) :=
  (List.range s.document.lineCount).mapM fun row =>
    (List.range ((s.document.lineAt row).length + 1)).mapM fun (column : Nat) =>
      s.isInsideComment ⟨row, column⟩

end Snapshot

end LinkerScriptEditor
