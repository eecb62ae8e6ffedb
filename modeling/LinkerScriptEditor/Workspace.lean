import LinkerScriptEditor.Buffer
import LinkerScriptEditor.EventBus
import LinkerScriptEditor.Highlight
import LinkerScriptEditor.Settings

/-!
# Workspaces

A workspace is what the commands of the editor work on: the buffer, the settings, the bus, the
services that the parts of the editor find by name, and the modes that have been used so far.
Observers of the bus and views of the buffer are passive, so what they were told is kept as a list
of notices.
-/

namespace LinkerScriptEditor

/-- Who listens on the bus: an observer of one event, or a view, which listens to several. -/
inductive Listener
  | observer (event : String)
  | view (id : Nat) (event : String)
deriving DecidableEq

/-- What a view hands to its host. -/
inductive ViewCall
  | buffer (rendered : StyledText) (state : HostView)
  | status (line : String)
  | event (name : String) (payload : Datum)
  | log (line : String)

/-- Something that an observer was told or that a view handed to its host. -/
inductive Notice
  | event (name : String) (payload : Datum)
  | view (id : Nat) (call : ViewCall)

/-- What is found under a name. A comment tracker belongs to the mode that put it there. -/
inductive Service
  | keymap
  | manager
  | tracker (owner : String)
  | value (datum : Datum)

namespace Service

def isKeymap : Service → Bool
  | keymap => true
  | _ => false

def isTracker : Service → Bool
  | tracker _ => true
  | _ => false

def isTrackerOf (mode : String) : Service → Bool
  | tracker owner => owner == mode
  | _ => false

def keymapName : String := "keymap_registry"
def managerName : String := "mode_manager"
def trackerName : String := "comment_scanner"

end Service

/-- A mode in use: its own name and the keys of a sequence that is not complete. -/
structure ModeState where
  name : String
  pending : List String
deriving DecidableEq

structure Workspace where
  buffer : Buffer
  settings : Settings
  bus : EventBus Listener
  services : OrderedMap String Service
  modes : OrderedMap String ModeState
  active : Option String
  notices : List Notice

namespace Workspace

def ofBuffer (buffer : Buffer) (settings : Settings) : Workspace :=
  ⟨buffer, settings, .empty, [], [], none, []⟩

def bufferPart : Lens Workspace Buffer := ⟨buffer, fun b w => { w with buffer := b }⟩

def settingsPart : Lens Workspace Settings := ⟨settings, fun s w => { w with settings := s }⟩

def onBuffer {α : Type} (x : Traced Buffer α) : Traced Workspace α := Traced.zoom bufferPart x

def onSettings {α : Type} (x : Traced Settings α) : Traced Workspace α := Traced.zoom settingsPart x

def activeMode? (w : Workspace) : Option ModeState :=
  w.active.bind fun mode => OrderedMap.get? mode w.modes

/-- The active mode's own name. -/
def activeName? (w : Workspace) : Option String := w.activeMode?.map ModeState.name

def service? (w : Workspace) (name : String) : Option Service := OrderedMap.get? name w.services

def putService (name : String) (service : Service) (w : Workspace) : Workspace :=
  { w with services := OrderedMap.put name service w.services }

/-- Puts a service under a name that is still free. -/
def offerService (name : String) (service : Service) (w : Workspace) : Workspace :=
  if (w.service? name).isSome then w else w.putService name service

def dropService (name : String) (w : Workspace) : Workspace :=
  { w with services := OrderedMap.erase name w.services }

def putMode (mode : String) (state : ModeState) (w : Workspace) : Workspace :=
  { w with modes := OrderedMap.put mode state w.modes }

def subscribe (event : String) (listener : Listener) (w : Workspace) : Workspace :=
  { w with bus := w.bus.subscribe event listener }

def unsubscribe (event : String) (listener : Listener) (w : Workspace) : Workspace :=
  { w with bus := w.bus.unsubscribe event listener }

def note (notice : Notice) (w : Workspace) : Workspace :=
  { w with notices := w.notices ++ [notice] }

/-- The fields of a log line that say where the editor stands. -/
def standing (w : Workspace) : OrderedMap String Datum :=
  [("mode", .str (w.activeName?.getD "?")),
    ("cursor", .tuple [.int w.buffer.cursor.row, .int w.buffer.cursor.column]),
    ("buffer", .ofText? w.buffer.name),
    ("buffer_version", .int w.buffer.document.version)]

def isGiven : Datum → Bool
  | .null => false
  | _ => true

/-- A log line of a view: a heading, where the editor stands, and the fields that are given. -/
def logLine (heading : String) (fields : OrderedMap String Datum) (w : Workspace) : String :=
  let fields := OrderedMap.putAll w.standing (fields.filter fun field => isGiven field.2)
  " ".intercalate (heading :: fields.map fun field => s!"{field.1}={field.2.print}")

def noteView (view : Nat) (call : ViewCall) (w : Workspace) : Workspace := w.note (.view view call)

/-- Tells a listener of an event. A view writes a log line and hands the event on. -/
def tell (payload : Datum) (listener : Listener) (w : Workspace) : Workspace :=
  match listener with
  | .observer name => w.note (.event name payload)
  | .view id name =>
    let line := w.logLine "event ->" [("event", .str name), ("payload", payload)]
    (w.noteView id (.log line)).noteView id (.event name payload)

/-- Tells everyone who is subscribed to an event. -/
def emitted (event : String) (payload : Datum) (w : Workspace) : Workspace :=
  (w.bus.listeners event).foldl (fun w listener => w.tell payload listener) w

def emit (event : String) (payload : Datum) : Traced Workspace Unit :=
  modify (emitted event payload)

end Workspace

end LinkerScriptEditor
