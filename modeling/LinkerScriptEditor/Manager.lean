import LinkerScriptEditor.Mode

/-!
# Mode managers

A manager owns the keymap and the descriptors of a workspace and hands keys to the active mode.
Registering a descriptor installs its actions and bindings one by one; what was installed before
one is refused stays. Activating a mode leaves the old one first, and makes the new one when it is
used for the first time.
-/

namespace LinkerScriptEditor

structure Manager where
  workspace : Workspace
  keymap : Keymap Handler
  descriptors : OrderedMap String Descriptor

namespace Manager

def keymapLogger : String := "ld_mode.keymaps"

def ofWorkspace (w : Workspace) : Manager where
  workspace := (w.offerService Service.keymapName .keymap).offerService Service.managerName .manager
  keymap := .empty keymapLogger
  descriptors := []

def workspacePart : Lens Manager Workspace := ⟨workspace, fun w m => { m with workspace := w }⟩

def keymapPart : Lens Manager (Keymap Handler) := ⟨keymap, fun k m => { m with keymap := k }⟩

def onWorkspace {α : Type} (x : Traced Workspace α) : Traced Manager α :=
  Traced.zoom workspacePart x

def onKeymap {α : Type} (x : Traced (Keymap Handler) α) : Traced Manager α :=
  Traced.zoom keymapPart x

def changeWorkspace (f : Workspace → Workspace) : Traced Manager Unit :=
  modify fun m => { m with workspace := f m.workspace }

def register (d : Descriptor) : Traced Manager Unit := do
  if (OrderedMap.get? d.name (← get).descriptors).isSome then
    Traced.fail (.modeTaken d.name)
  let handle := SpanHandle.ofData defaultLogger "modes::register" (some "modes")
    [("mode", .str d.name)]
  Traced.within handle do
    for a in d.actions do
      onKeymap (Keymap.registerAction a true)
    for b in d.bindings do
      onKeymap (Keymap.registerBinding b false)
    modify fun m => { m with descriptors := OrderedMap.put d.name d m.descriptors }

def descriptor (m : Manager) (name : String) : Except Fault Descriptor :=
  match OrderedMap.get? name m.descriptors with
  | some d => .ok d
  | none => .error (.unknownMode name)

/-- The first mode, in the order of registration, that claims a path. -/
def descriptorForPath? (m : Manager) (path : String) : Option Descriptor :=
  (OrderedMap.values m.descriptors).find? (·.matchesPath path)

/-- What the mode registered under a name does. -/
def behaviour (m : Manager) (mode : String) : Behaviour :=
  ((OrderedMap.get? mode m.descriptors).map Descriptor.behaviour).getD .linkerScript

/-- Starts a mode of a behaviour. The linker script mode needs the keymap among the services. -/
def start (w : Workspace) : Behaviour → Except Fault ModeState
  | .linkerScript =>
    if (w.service? Service.keymapName).any Service.isKeymap then .ok ⟨LinkerScriptMode.name, []⟩
    else .error .noKeymap
  | .host mode => .ok ⟨mode.name, []⟩

/-- Enters a mode. The linker script mode offers its comment tracker. -/
def enter (mode : String) (previous : Option String) : Traced Manager Unit := do
  match (← get).behaviour mode with
  | .linkerScript =>
    changeWorkspace (·.putService Service.trackerName (.tracker mode))
    onWorkspace (Workspace.emit "ld-script.enter" (.ofText? previous))
  | .host host => onWorkspace (host.enter previous)

def setPending (mode : String) (keys : List String) : Traced Manager Unit :=
  changeWorkspace fun w =>
    match OrderedMap.get? mode w.modes with
    | some state => w.putMode mode { state with pending := keys }
    | none => w

/-- Takes the comment tracker back if it is still the mode's own. -/
def withdrawTracker (mode : String) (w : Workspace) : Workspace :=
  if (w.service? Service.trackerName).any (Service.isTrackerOf mode) then
    w.dropService Service.trackerName
  else w

/-- Leaves a mode. The linker script mode forgets pending keys. -/
def leave (mode : String) (next : Option String) : Traced Manager Unit := do
  match (← get).behaviour mode with
  | .linkerScript =>
    setPending mode []
    changeWorkspace (withdrawTracker mode)
    onWorkspace (Workspace.emit "ld-script.exit" (.ofText? next))
  | .host host => onWorkspace (host.leave next)

/-- The state of a mode, which is made if the mode has not been used before. -/
def instantiate (d : Descriptor) : Traced Manager ModeState := do
  let w := (← get).workspace
  match OrderedMap.get? d.name w.modes with
  | some state => return state
  | none =>
    let state ← Traced.ofExcept (start w d.behaviour)
    changeWorkspace (·.putMode d.name state)
    return state

/-- Makes a mode the active one and returns its own name. Nothing happens if the active mode
already has that name. -/
def activate (name : String) : Traced Manager String := do
  let d ← Traced.ofExcept ((← get).descriptor name)
  let w := (← get).workspace
  if w.activeName? = some name then
    return name
  else
    if let (some mode, some previous) := (w.active, w.activeName?) then
      leave mode (some name)
      onWorkspace (Workspace.emit "mode.exit" (.str previous))
    let state ← instantiate d
    changeWorkspace ({ · with active := some name })
    enter name w.activeName?
    onWorkspace (Workspace.emit "mode.enter" (.str name))
    Traced.event .info "mode.switch" [("mode", .str name)]
    return state.name

/-- Activates the mode that claims a path. -/
def activateForPath (path : String) : Traced Manager (Option String) := do
  match (← get).descriptorForPath? path with
  | some d => some <$> activate d.name
  | none =>
    Traced.event .debug "mode.no_match" [("path", .str path)]
    return none

/-- Runs the action that a key sequence is bound to. -/
def execute (b : Binding) (a : Action Handler) : Traced Manager KeyResult := do
  let handle := SpanHandle.ofData defaultLogger "keymaps::execute" (some "keymaps")
    [("binding_id", .str b.id), ("action", .str a.id)]
  Outcome.toResult <$> Traced.within handle (onWorkspace a.handler)

/-- A key in the linker script mode: it runs an action, waits for more keys, types its text, or is
left to the host. -/
def pressLinkerScript (mode : String) (state : ModeState) (press : KeyPress) :
    Traced Manager KeyResult := do
  let keys := state.pending ++ [press.token]
  setPending mode keys
  match ← onKeymap (Keymap.resolve LinkerScriptMode.name keys) with
  | .found b a _ =>
    setPending mode []
    execute b a
  | .pending _ => return .saying "pending" "awaiting_sequence"
  | .miss =>
    setPending mode []
    if press.isPrintable then
      let _ ← onWorkspace (Workspace.onBuffer (Buffer.insertText (press.text.getD "").toList none))
      return .plain "insert"
    else
      return .unbound

/-- Hands a key to the active mode and goes to the mode that the result asks for. -/
def press (press : KeyPress) : Traced Manager KeyResult := do
  let m ← get
  match m.workspace.active, m.workspace.activeMode? with
  | some mode, some state =>
    let name := s!"mode::{state.name}"
    let handle := SpanHandle.ofData defaultLogger name (some name)
      [("key", .str press.key), ("mode", .str state.name)]
    let result ← Traced.within handle (match m.behaviour mode with
      | .linkerScript => pressLinkerScript mode state press
      | .host host => onWorkspace (host.press press))
    match result.switchTo.filter (· != "") with
    | some next => let _ ← activate next
    | none => pure ()
    return result
  | _, _ => Traced.fail .noActiveMode

/-- Runs an action by its name. -/
def runAction (id : String) : Traced Manager Outcome := do
  let a ← Traced.ofExcept ((← get).keymap.action id)
  onWorkspace a.handler

/-- Offers the linker script mode and activates it, also for files that it does not claim. -/
def setUp : Traced Manager Unit := do
  register LinkerScriptMode.descriptor
  match (← get).workspace.buffer.path with
  | none => let _ ← activate LinkerScriptMode.name
  | some path =>
    match ← activateForPath path with
    | some _ => pure ()
    | none => let _ ← activate LinkerScriptMode.name

/-- The manager of a buffer, with the linker script mode active. -/
def ofBuffer (buffer : Buffer) (settings : Settings) : Manager :=
  (setUp (ofWorkspace (.ofBuffer buffer settings))).state

end Manager

end LinkerScriptEditor
