import LinkerScriptEditor.FileTree
import LinkerScriptEditor.View

/-!
# The editor on one file

The editor shows one file. It is mounted once the file is read; then keys go to its view, and
saving writes the buffer back. What it shows and says is kept as a list of records. Without
widgets there is nowhere to show the buffer and the status.
-/

namespace LinkerScriptEditor

inductive AppRecord
  | buffer (rendered : StyledText)
  | status (line : String)
  | log (line : String)
  | notify (text : String)

structure App where
  path : Option FilePath
  widgets : Bool
  files : FileTree
  settings : Settings
  manager : Option Manager
  records : List AppRecord

namespace App

def view : View := ⟨0⟩

def start (path : Option FilePath) (widgets : Bool) (files : FileTree) (settings : Settings) :
    App :=
  ⟨path, widgets, files, settings, none, []⟩

/-- The first and the last row of a region event. -/
def regionRows? (payload : Datum) : Option (Int × Int) := do
  return (← (← payload.field? "first").int?, ← (← payload.field? "last").int?)

/-- What the window says about an event. -/
def announcement (name : String) (payload : Datum) : Except Fault (Option String) :=
  match regionRows? payload with
  | some (first, last) =>
    if name = "indent.region" then
      return s!"re-indented lines {← Numeral.write (first + 1)}-{← Numeral.write (last + 1)}"
    else .ok none
  | none => .ok none

/-- What becomes of a call of the view. -/
def recordsOf (widgets : Bool) : ViewCall → List AppRecord
  | .buffer rendered _ => if widgets then [.buffer rendered] else []
  | .status line => if widgets then [.status line] else []
  | .log line => [.log line]
  | .event name payload =>
    match announcement name payload with
    | .ok text => text.toList.map .notify
    | .error _ => []

def recordsOfNotice (widgets : Bool) : Notice → List AppRecord
  | .view _ call => recordsOf widgets call
  | .event .. => []

/-- Why the window cannot say what a notice asks for. -/
def obstacle? : Notice → Option Fault
  | .view _ (.event name payload) =>
    match announcement name payload with
    | .ok _ => none
    | .error fault => some fault
  | _ => none

/-- Takes over a manager and turns what its view said into records, as far as the window can say
it. -/
def adopt (m : Manager) (app : App) : App :=
  let said := m.workspace.notices.takeWhile fun notice => (obstacle? notice).isNone
  { app with
    manager := some { m with workspace := { m.workspace with notices := [] } }
    records := app.records ++ said.flatMap (recordsOfNotice app.widgets) }

/-- Works on a manager, which the app takes over afterwards, whatever came of the work. What the
window cannot say makes the work fail; an event of a region is told when the region is done, so
the work leaves the same manager. -/
def onManager {α : Type} (m : Manager) (x : Traced Manager α) : Traced App α := fun app =>
  let trace := x m
  let outcome := match trace.state.workspace.notices.findSome? obstacle? with
    | some fault => .error fault
    | none => trace.outcome
  ⟨trace.log, outcome, app.adopt trace.state⟩

def showStatus (line : String) : Traced App Unit := modify fun app =>
  { app with records := app.records ++ recordsOf app.widgets (.status line) }

/-- The buffer of the file. A file that is not there yet is empty. -/
def loadBuffer (app : App) : Except Fault Buffer :=
  match app.path with
  | none => .ok (.ofDocument (some "*scratch*") none .blank)
  | some path => do
    let text ← if ← app.files.exists? path then app.files.readText path else .ok []
    return .ofText (some path.name) (some path.toText) text

/-- Reads the file, sets up a manager and shows its buffer. -/
def mount : Traced App Unit := do
  let app ← get
  let buffer ← Traced.ofExcept app.loadBuffer
  let settings := (app.manager.map (·.workspace.settings)).getD app.settings
  onManager (.ofWorkspace (.ofBuffer buffer settings)) do
    Manager.setUp
    view.attach

/-- The title of the window, if the editor has a file. -/
def title? (app : App) : Option String := app.path.map FilePath.name

/-- Keys that the window deals with itself. -/
def reserved : List String := ["ctrl+q", "ctrl+s"]

/-- A key of the terminal. A name of one character is also the text of the key, unless the
terminal says otherwise. Says whether the editor has dealt with it. -/
def press (key : String) (character : Option String) : Traced App Bool := do
  match (← get).manager with
  | none => return false
  | some m =>
    if reserved.contains key then return false
    else
      let character := character <|> (if key.length = 1 then some key else none)
      return (← onManager m (view.press (.ofTerminal key character))).isConsumed

/-- Writes the buffer to its file. -/
def save : Traced App Unit := do
  let app ← get
  match app.manager, app.path with
  | some m, some path =>
    let files ← Traced.ofExcept (app.files.writeText path m.workspace.buffer.text)
    let w := m.workspace
    set { app with
      files
      manager := some { m with workspace := { w with buffer := w.buffer.markSaved } } }
    Traced.event .info "buffer.saved" [("path", .str path.toText)]
    showStatus s!"wrote {path.toText}"
  | _, _ => showStatus "no file to save"

/-- The text of the file as it was written last, if there is one. -/
def stored? (app : App) : Except Fault (Option (List Char)) :=
  match app.path with
  | none => .ok none
  | some path => do
    if ← app.files.exists? path then
      return some (← FileTree.decode (← app.files.readBytes path))
    else return none

/-- Changes the buffer as a window does, without a key. -/
def changeBuffer (f : Buffer → Buffer) : Traced App Unit := do
  let app ← get
  match app.manager with
  | none => Traced.fail (.noReceiver "context")
  | some m =>
    let w := m.workspace
    set { app with manager := some { m with workspace := { w with buffer := f w.buffer } } }

def unmount : Traced App Unit := do
  match (← get).manager with
  | none => return ()
  | some m => onManager m view.close

end App

end LinkerScriptEditor
