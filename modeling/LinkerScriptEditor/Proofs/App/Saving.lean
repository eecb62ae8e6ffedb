import LinkerScriptEditor.App
import LinkerScriptEditor.Proofs.FileTree
import LinkerScriptEditor.Proofs.Log.Preserves
import LinkerScriptEditor.Proofs.Manager.Session
import LinkerScriptEditor.Proofs.View.Showing

/-!
# Saving and loading

While a file is edited no carriage return comes into the buffer: reading leaves none, no key types
one, and no command brings one. So what is saved is read back line by line.
-/

namespace LinkerScriptEditor

open Traced

namespace Manager

/-- A manager that is ready for keys and holds no carriage returns. -/
structure Clean (m : Manager) : Prop where
  ready : m.Ready
  returnless : m.workspace.buffer.Returnless

variable {m : Manager}

theorem preserves_press (key : KeyPress) : Preserves Clean (press key) := by
  intro m clean
  have listed := clean.ready.keymap.listed
  refine ⟨(clean.ready.press key).ready, ?_⟩
  obtain ⟨keys, w, after, worked⟩ :=
    (clean.ready.inMode.press_handled listed key).worked listed
  rw [after]
  exact worked.returnless clean.returnless

theorem Clean.step (clean : m.Clean) {step : Step} (valid : step.Valid m) :
    (step.perform m).Clean := by
  refine ⟨clean.ready.step valid, ?_⟩
  cases step with
  | press key => exact (preserves_press key m clean).returnless
  | moveCursor p => exact clean.returnless.perform (.setCursor p) trivial
  | configure change => exact clean.returnless

/-- A view changes nothing but the notices and who listens. -/
theorem Clean.noted (clean : m.Clean) (bus : EventBus Listener) (notices : List Notice) :
    Clean { m with workspace := { m.workspace with bus, notices } } where
  ready := clean.ready.frame ⟨rfl, rfl, rfl, rfl⟩ clean.ready.workspace.sound
  returnless := clean.returnless

theorem Clean.saved (clean : m.Clean) :
    Clean { m with
      workspace := { m.workspace with buffer := m.workspace.buffer.markSaved } } where
  ready := clean.ready.frame (Workspace.frame_buffer m.workspace rfl)
    { clean.ready.workspace.sound with }
  returnless := { clean.returnless with }

theorem clean_start (name path : Option String) {text : List Char} (free : '\r' ∉ text)
    (environment : Environment) :
    Clean (ofBuffer (.ofText name path text) (.ofEnvironment environment)) where
  ready := ready_start name path text environment
  returnless := by
    rw [ofBuffer_eq]
    exact Buffer.returnless_ofText name path free

end Manager

namespace View

open Manager

theorem preserves_call (v : View) (c : ViewCall) : Preserves Clean (v.call c) :=
  fun m clean => clean.noted m.workspace.bus _

theorem preserves_log (v : View) (heading : String) (fields : OrderedMap String Datum) :
    Preserves Clean (v.log heading fields) :=
  fun m clean => clean.noted m.workspace.bus _

theorem preserves_refresh (v : View) : Preserves Clean v.refresh :=
  fun m clean => clean.noted m.workspace.bus _

theorem preserves_statusLine : Preserves Clean statusLine := by
  refine preserves_of_still fun m => ?_
  rw [effect_statusLine]

theorem preserves_attach (v : View) : Preserves Clean v.attach := by
  have subscribes : Preserves Clean (changeWorkspace fun w =>
      forwarded.foldl (fun w event => w.subscribe event (v.listener event)) w) :=
    fun m clean => clean.noted _ m.workspace.notices
  rw [attach]
  refine subscribes.bind fun _ => v.preserves_refresh.bind fun _ => ?_
  exact preserves_statusLine.bind fun line => v.preserves_call _

/-- A key that is handed on by a view is a key for the manager. -/
theorem preserves_press (v : View) (key : KeyPress) : Preserves Clean (v.press key) := by
  rw [press]
  refine (v.preserves_log _ _).bind fun _ => (Manager.preserves_press _).bind fun result => ?_
  refine (v.preserves_log _ _).bind fun _ => v.preserves_refresh.bind fun _ => ?_
  refine preserves_statusLine.bind fun status => ?_
  dsimp only
  cases result.message.filter (· != "") with
  | none => exact (v.preserves_call _).bind fun _ => preserves_of_still fun _ => rfl
  | some message => exact (v.preserves_call _).bind fun _ => preserves_of_still fun _ => rfl

end View

namespace App

open Manager

/-- What a session on a file comes to: keys come from the terminal, the host works on the manager,
and the file is saved, in any order. -/
inductive Edited (path : FilePath) : App → Prop
  | mount {files : FileTree} {text : List Char} (readable : files.readText path = .ok text)
      (widgets : Bool) (environment : Environment) :
      Edited path (effect mount (start (some path) widgets files (.ofEnvironment environment))).2
  | press {app : App} (before : Edited path app) (key : String) (character : Option String) :
      Edited path (effect (App.press key character) app).2
  | host {app : App} {m : Manager} {step : Step} (before : Edited path app)
      (shows : app.manager = some m) (valid : step.Valid m) :
      Edited path (app.adopt (step.perform m))
  | save {app : App} (before : Edited path app) : Edited path (effect App.save app).2

/-- A file is edited in a clean manager. -/
structure Editing (path : FilePath) (app : App) : Prop where
  named : app.path = some path
  file : app.files.HasFile path
  clean : ∃ m, app.manager = some m ∧ m.Clean

variable {path : FilePath} {app : App} {m : Manager}

theorem adopt_editing (named : app.path = some path) (file : app.files.HasFile path)
    (clean : m.Clean) : Editing path (app.adopt m) :=
  ⟨named, file, _, rfl, clean.noted m.workspace.bus []⟩

/-- A file that can be read is what the buffer is made of. -/
theorem loadBuffer_eq {text : List Char} (named : app.path = some path)
    (read : app.files.readText path = .ok text) :
    app.loadBuffer = .ok (.ofText (some path.name) (some path.toText) text) := by
  rw [loadBuffer, named]
  dsimp only
  rw [(FileTree.HasFile.of_readText read).exists?]
  change (app.files.readText path >>= fun text => Except.ok (Buffer.ofText _ _ text)) = _
  rw [read]
  rfl

/-- Whatever comes of the work, the manager it leaves is taken over. -/
theorem state_onManager {α : Type} (m : Manager) (x : Traced Manager α) (app : App) :
    (effect (onManager m x) app).2 = app.adopt (effect x m).2 := rfl

/-- A view that is attached to the manager of a text changes nothing that matters. -/
theorem clean_opened (name file : Option String) {text : List Char} (free : '\r' ∉ text)
    (environment : Environment) :
    (effect (setUp >>= fun _ => view.attach)
      (ofWorkspace (.ofBuffer (.ofText name file text) (.ofEnvironment environment)))).2.Clean := by
  have clean := clean_start name file free environment
  rw [ofBuffer, state_eq] at clean
  rw [effect_bind]
  rcases run : effect setUp (ofWorkspace (.ofBuffer (.ofText name file text)
    (.ofEnvironment environment))) with ⟨fault | done, next⟩
  · rw [run] at clean
    exact clean
  · rw [run] at clean
    exact view.preserves_attach next clean

theorem editing_mount {files : FileTree} {text : List Char}
    (readable : files.readText path = .ok text) (widgets : Bool) (environment : Environment) :
    Editing path
      (effect mount (start (some path) widgets files (.ofEnvironment environment))).2 := by
  have named : (start (some path) widgets files (.ofEnvironment environment)).path = some path :=
    rfl
  have file : (start (some path) widgets files (.ofEnvironment environment)).files.HasFile path :=
    .of_readText readable
  have clean := clean_opened (some path.name) (some path.toText)
    (FileTree.not_mem_of_readText readable) environment
  rw [mount, effect_bind_of_ok (effect_get _), loadBuffer_eq named readable,
    effect_bind_of_ok (effect_ofExcept _ _), state_onManager]
  exact adopt_editing named file clean

theorem Editing.press (editing : Editing path app) (key : String) (character : Option String) :
    Editing path (effect (App.press key character) app).2 := by
  obtain ⟨m, shows, clean⟩ := editing.clean
  rw [App.press, effect_bind_of_ok (effect_get app), shows]
  dsimp only
  split
  · exact editing
  · refine Preserves.bind (fun app editing => ?_) (fun result => preserves_of_still fun _ => rfl)
      app editing
    exact adopt_editing editing.named editing.file (view.preserves_press _ m clean)

theorem effect_save {files : FileTree} (shows : app.manager = some m)
    (named : app.path = some path)
    (written : app.files.writeText path m.workspace.buffer.text = .ok files) :
    ∃ saved, effect save app = (.ok (), saved) ∧ saved.path = some path ∧ saved.files = files ∧
      saved.manager = some { m with
        workspace := { m.workspace with buffer := m.workspace.buffer.markSaved } } := by
  rw [save, effect_bind_of_ok (effect_get app), shows, named]
  dsimp only
  rw [written]
  exact ⟨_, rfl, rfl, rfl, rfl⟩

theorem Editing.save (editing : Editing path app) : Editing path (effect save app).2 := by
  obtain ⟨m, shows, clean⟩ := editing.clean
  obtain ⟨files, written, file, -⟩ := editing.file.writeText m.workspace.buffer.text
  obtain ⟨saved, run, named, stored, kept⟩ := effect_save shows editing.named written
  rw [run]
  exact ⟨named, stored ▸ file, _, kept, clean.saved⟩

theorem Editing.host (editing : Editing path app) (shows : app.manager = some m) {step : Step}
    (valid : step.Valid m) : Editing path (app.adopt (step.perform m)) := by
  obtain ⟨m', shown, clean⟩ := editing.clean
  obtain rfl : m = m' := Option.some.inj (shows.symm.trans shown)
  exact adopt_editing editing.named editing.file (clean.step valid)

/-- In a session on a file the file stays there, and no carriage return comes into the buffer. -/
theorem Edited.editing (edited : Edited path app) : Editing path app := by
  induction edited with
  | mount readable widgets environment => exact editing_mount readable widgets environment
  | press before key character ih => exact ih.press key character
  | host before shows valid ih => exact ih.host shows valid
  | save before ih => exact ih.save

/-- Whatever was done to a file, it is saved, and loading it again gives the lines that were in the
buffer, with nothing left to save. -/
theorem reload_saved (edited : Edited path app) :
    ∃ m saved loaded, app.manager = some m ∧ effect save app = (.ok (), saved) ∧
      saved.loadBuffer = .ok loaded ∧
      loaded.document.lines = m.workspace.buffer.document.lines ∧
      loaded.document.dirty = false := by
  obtain ⟨m, shows, clean⟩ := edited.editing.clean
  have returnless := clean.returnless.lines
  have separated := clean.ready.workspace.sound.lines
  obtain ⟨files, written, -, read⟩ := edited.editing.file.writeText m.workspace.buffer.text
  obtain ⟨saved, run, named, rfl, -⟩ := effect_save shows edited.editing.named written
  have free : '\r' ∉ m.workspace.buffer.text := returnless.joinLines
  rw [FileTree.unifyLineEnds_of_not_mem free] at read
  exact ⟨m, saved, _, shows, run, loadBuffer_eq named read, returnless.lines_ofText separated, rfl⟩

/-- A line break and a key typed into a file with both kinds of line end. -/
theorem reload_typed :
    let path := FilePath.ofText "a.ld"
    let files : FileTree := [(["a.ld"], .file (Utf8.encode "x\r\ny\r".toList))]
    let opened := (effect mount (start (some path) true files (.ofEnvironment []))).2
    let broken := (effect (App.press "enter" none) opened).2
    let app := (effect (App.press "z" none) broken).2
    ∃ m saved loaded, app.manager = some m ∧ effect save app = (.ok (), saved) ∧
      saved.loadBuffer = .ok loaded ∧
      loaded.document.lines = m.workspace.buffer.document.lines ∧
      loaded.document.dirty = false := by
  intro path files opened broken app
  have readable : files.readText path = .ok "x\ny\n".toList := by rfl
  have mounted : Edited path opened := .mount readable true []
  exact reload_saved ((mounted.press "enter" none).press "z" none)

end App

end LinkerScriptEditor
