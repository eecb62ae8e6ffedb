import LinkerScriptEditor.Manager

/-!
# Views

A view shows the buffer of a manager to a host: after every key it hands over the rendered buffer
and a status line, and it forwards some events of the bus until it is closed.
-/

namespace LinkerScriptEditor

/-- A view, known by a number. -/
structure View where
  id : Nat
deriving DecidableEq

namespace View

def forwarded : List String := ["indent.line", "indent.region", "mode.enter", "mode.exit"]

def listener (v : View) (event : String) : Listener := .view v.id event

def call (v : View) (c : ViewCall) : Traced Manager Unit :=
  Manager.changeWorkspace (·.noteView v.id c)

def render (m : Manager) : StyledText :=
  Highlight.document m.workspace.buffer.document (some m.workspace.buffer.cursor)

/-- The mode, the cursor counted from one, and the settings. -/
def statusLine : Traced Manager String := do
  let w := (← get).workspace
  let p := w.buffer.cursor
  let row ← Traced.ofExcept (Numeral.write (p.row + 1))
  let column ← Traced.ofExcept (Numeral.write (p.column + 1))
  let unit ← Manager.onWorkspace (Workspace.onSettings Settings.readUnit)
  let style ← Manager.onWorkspace (Workspace.onSettings Settings.readStyle)
  let mode := w.activeName?.getD "-"
  return s!"{mode} | Ln {row}, Col {column} | indent {unit} ({style.name})"

/-- Hands over the buffer as it is now. -/
def refresh (v : View) : Traced Manager Unit := do
  let m ← get
  let attributes := [("mode", .str (m.workspace.activeName?.getD ""))]
  v.call (.buffer (render m) (m.workspace.buffer.hostView attributes))

def log (v : View) (heading : String) (fields : OrderedMap String Datum) : Traced Manager Unit :=
  Manager.changeWorkspace fun w => w.noteView v.id (.log (w.logLine heading fields))

/-- Starts forwarding events and shows the buffer. -/
def attach (v : View) : Traced Manager Unit := do
  Manager.changeWorkspace fun w =>
    forwarded.foldl (fun w event => w.subscribe event (v.listener event)) w
  v.refresh
  v.call (.status (← statusLine))

/-- Hands a key to the manager and shows what became of it. -/
def press (v : View) (key : KeyPress) : Traced Manager KeyResult := do
  let modifiers := key.modifiers.map CharClass.upperText
  v.log "key ->" [("key", .str key.key), ("text", .ofText? key.text),
    ("mods", .tuple (modifiers.map .str))]
  let result ← Manager.press { key with modifiers }
  v.log "result <-" [("consumed", .ofBool? result.consumed),
    ("status", .ofText? result.status), ("message", .ofText? result.message)]
  v.refresh
  let status ← statusLine
  match result.message.filter (· != "") with
  | some message => v.call (.status s!"{status} | {message}")
  | none => v.call (.status status)
  return result

/-- Stops forwarding events, the last subscription first. -/
def close (v : View) : Traced Manager Unit :=
  Manager.changeWorkspace fun w =>
    forwarded.reverse.foldl (fun w event => w.unsubscribe event (v.listener event)) w

end View

end LinkerScriptEditor
