import LinkerScriptEditor.Proofs.App.Saving
import LinkerScriptEditor.Proofs.Buffer.Versions

/-!
# Versions of an edited file

A text is edited through requests, keys, commands and changes of the settings, and saved, in any
order. The version counts the edits that are recorded and the steps through the history, the change
tick follows it, and a document that is not dirty holds the text that was loaded or saved last.
-/

namespace LinkerScriptEditor

open Traced

namespace Manager

/-- Keys are served by the linker script mode. -/
structure Operating (m : Manager) : Prop where
  inMode : m.InMode
  listed : ∀ entry ∈ m.keymap.actions, entry.2 ∈ LinkerScriptMode.actions

theorem operating_ofBuffer (b : Buffer) (s : Settings) : (ofBuffer b s).Operating := by
  rw [ofBuffer_eq]
  exact ⟨⟨rfl, ⟨[], rfl⟩, rfl⟩, LinkerScriptMode.keymap_serves.listed⟩

variable {m : Manager} {w : Workspace}

theorem Operating.congr (operating : m.Operating) (modes : w.modes = m.workspace.modes)
    (active : w.active = m.workspace.active) : Operating { m with workspace := w } :=
  ⟨operating.inMode.congr modes active, operating.listed⟩

theorem Operating.worked (operating : m.Operating) (worked : m.workspace.Worked w) :
    Operating { m with workspace := w } :=
  operating.congr worked.frame.modes worked.frame.active

/-- The manager is operating after some requests to its buffer, none of which marks it as saved. -/
def Requested (m after : Manager) : Prop :=
  after.Operating ∧ ∃ requests : List Buffer.Operation,
    after.workspace.buffer = m.workspace.buffer.performAll requests ∧
      ∀ op ∈ requests, op ≠ .markSaved

theorem Operating.requested (operating : m.Operating) (worked : m.workspace.Worked w) :
    m.Requested { m with workspace := w } :=
  ⟨operating.worked worked, worked.exists_requests⟩

theorem Operating.requested_press (operating : m.Operating) (key : KeyPress) :
    m.Requested (effect (press key) m).2 := by
  obtain ⟨keys, w, after, worked⟩ :=
    (operating.inMode.press_handled operating.listed key).worked operating.listed
  have pending : (m.pend keys).Operating := ⟨operating.inMode.pend keys, operating.listed⟩
  rw [after]
  exact pending.requested worked

theorem Operating.requested_runAction (operating : m.Operating) (id : String) :
    m.Requested (effect (runAction id) m).2 := by
  cases found : m.keymap.action id with
  | error fault =>
      rw [runAction, effect_bind_of_ok (effect_get m), found]
      exact operating.requested (.refl _)
  | ok a =>
      rw [effect_runAction found]
      have mem := operating.listed _ (Keymap.mem_of_action found)
      exact operating.requested (Command.mild_handler mem).worked

end Manager

namespace App

open Manager

/-- What is done to a text that is being edited. -/
inductive Deed
  | ask (op : Buffer.Operation) (unmarked : op ≠ .markSaved)
  | press (key : KeyPress)
  | run (id : String)
  | indentRow (row : Int)
  | configure (change : Settings.Change)
  | save

/-- The manager after a deed. Saving is up to the app. -/
def Deed.perform : Deed → Manager → Manager
  | ask op _, m => (effect (onWorkspace (Workspace.onBuffer op.request)) m).2
  | press key, m => (effect (Manager.press key) m).2
  | run id, m => (effect (runAction id) m).2
  | indentRow row, m => (effect (onWorkspace (Command.indentRow row)) m).2
  | configure change, m => (effect (onWorkspace (Workspace.onSettings change.make)) m).2
  | save, m => m

/-- The text that saving writes, if it can be written. -/
def written? (app : App) : Option (List Char) :=
  match app.manager, app.path with
  | some m, some path =>
    match app.files.writeText path m.workspace.buffer.text with
    | .ok _ => some m.workspace.buffer.text
    | .error _ => none
  | _, _ => none

/-- An app, with the text that was loaded or saved last. -/
structure Desk where
  app : App
  kept : List Char

namespace Desk

def buffer? (desk : Desk) : Option Buffer := desk.app.manager.map (·.workspace.buffer)

/-- The buffer of a text in an app. Loading takes the carriage returns at the ends of the lines. -/
def onText (name file : Option String) (text : List Char) (settings : Settings)
    (path : Option FilePath) (widgets : Bool) (files : FileTree) : Desk where
  app := { start path widgets files settings with
    manager := some (.ofBuffer (.ofText name file text) settings) }
  kept := (Document.ofText text).text

def step (desk : Desk) : Deed → Desk
  | .save => ⟨(effect App.save desk.app).2, desk.app.written?.getD desk.kept⟩
  | deed =>
    match desk.app.manager with
    | some m => ⟨desk.app.adopt (deed.perform m), desk.kept⟩
    | none => desk

def after (desk : Desk) (deeds : List Deed) : Desk := deeds.foldl step desk

end Desk

variable {m : Manager} {app : App}

theorem requested_perform (operating : m.Operating) (deed : Deed) :
    m.Requested (deed.perform m) := by
  cases deed with
  | ask op unmarked =>
      refine ⟨operating.congr rfl rfl, [op], op.state_request _, ?_⟩
      intro other mem
      rw [List.mem_singleton.mp mem]
      exact unmarked
  | press key => exact operating.requested_press key
  | run id => exact operating.requested_runAction id
  | indentRow row => exact operating.requested (Command.worked_indentRow row)
  | configure change => exact ⟨operating.congr rfl rfl, [], rfl, nofun⟩
  | save => exact ⟨operating, [], rfl, nofun⟩

/-- Saving marks the buffer as saved just if it is written. -/
theorem manager_save (shows : app.manager = some m) :
    (effect save app).2.manager = match app.written? with
      | some _ => some { m with
          workspace := { m.workspace with buffer := m.workspace.buffer.markSaved } }
      | none => some m := by
  rw [save, effect_bind_of_ok (effect_get app), written?, shows]
  cases app.path with
  | none => exact shows
  | some path =>
      dsimp only
      cases app.files.writeText path m.workspace.buffer.text with
      | error fault => exact shows
      | ok files => rfl

theorem written?_eq_some {text : List Char} (shows : app.manager = some m)
    (written : app.written? = some text) : text = m.workspace.buffer.text := by
  rw [written?, shows] at written
  split at written
  · next same _ =>
      cases same
      split at written <;> cases written
      rfl
  · cases written

/-- The buffer of an app counts its versions, and it is the text that was loaded or saved last if
it is not dirty. -/
structure Desk.Keeps (desk : Desk) (m : Manager) : Prop where
  shows : desk.app.manager = some m
  operating : m.Operating
  tick : m.workspace.buffer.changeTick = m.workspace.buffer.document.version
  clean : m.workspace.buffer.document.dirty = false → m.workspace.buffer.text = desk.kept

theorem Desk.keeps_onText (name file : Option String) (text : List Char) (settings : Settings)
    (path : Option FilePath) (widgets : Bool) (files : FileTree) :
    (onText name file text settings path widgets files).Keeps
      (.ofBuffer (.ofText name file text) settings) where
  shows := rfl
  operating := operating_ofBuffer _ _
  tick := by
    rw [ofBuffer_eq]
    rfl
  clean := by
    intro _
    rw [ofBuffer_eq]
    rfl

/-- What requests leave is taken over by the app. -/
theorem Desk.Keeps.adopt {desk : Desk} (keeps : desk.Keeps m) {after : Manager}
    (requested : m.Requested after) :
    ∃ next requests, Keeps ⟨desk.app.adopt after, desk.kept⟩ next ∧
      next.workspace.buffer = m.workspace.buffer.performAll requests := by
  obtain ⟨operating, requests, performed, unmarked⟩ := requested
  refine ⟨_, requests, ⟨rfl, operating.congr rfl rfl, ?_, ?_⟩, performed⟩
  · dsimp only
    rw [performed]
    exact Buffer.tick_performAll keeps.tick requests
  · dsimp only
    rw [performed]
    intro clean
    obtain ⟨before, text⟩ := Buffer.clean_performAll unmarked clean
    exact text.trans (keeps.clean before)

theorem Desk.Keeps.save {desk : Desk} (keeps : desk.Keeps m) :
    ∃ next requests, (desk.step .save).Keeps next ∧
      next.workspace.buffer = m.workspace.buffer.performAll requests := by
  have saved := manager_save keeps.shows
  cases written : desk.app.written? with
  | none =>
      rw [written] at saved
      refine ⟨m, [], ⟨saved, keeps.operating, keeps.tick, ?_⟩, rfl⟩
      simp only [step, written, Option.getD_none]
      exact keeps.clean
  | some text =>
      rw [written] at saved
      refine ⟨_, [.markSaved], ⟨saved, keeps.operating.congr rfl rfl, keeps.tick, ?_⟩, rfl⟩
      simp only [step, written, Option.getD_some]
      exact fun _ => (written?_eq_some keeps.shows written).symm

theorem Desk.step_of_ne_save {desk : Desk} (shows : desk.app.manager = some m) {deed : Deed}
    (other : deed ≠ .save) : desk.step deed = ⟨desk.app.adopt (deed.perform m), desk.kept⟩ := by
  cases deed with
  | save => exact absurd rfl other
  | _ =>
      rw [step, shows]
      nofun

/-- A deed comes to requests to the buffer, and the app goes on counting. -/
theorem Desk.Keeps.step {desk : Desk} (keeps : desk.Keeps m) (deed : Deed) :
    ∃ next requests, (desk.step deed).Keeps next ∧
      next.workspace.buffer = m.workspace.buffer.performAll requests := by
  by_cases saves : deed = .save
  · rw [saves]
    exact keeps.save
  · rw [step_of_ne_save keeps.shows saves]
    exact keeps.adopt (requested_perform keeps.operating deed)

theorem Desk.Keeps.buffer?_ask {desk : Desk} (keeps : desk.Keeps m) {op : Buffer.Operation}
    (unmarked : op ≠ .markSaved) :
    (desk.step (.ask op unmarked)).buffer? = some (m.workspace.buffer.perform op) := by
  have other : Deed.ask op unmarked ≠ .save := nofun
  rw [step_of_ne_save keeps.shows other]
  exact congrArg some (op.state_request _)

theorem Desk.Keeps.after {desk : Desk} (keeps : desk.Keeps m) (deeds : List Deed) :
    ∃ next requests, (desk.after deeds).Keeps next ∧
      next.workspace.buffer = m.workspace.buffer.performAll requests := by
  induction deeds generalizing desk m with
  | nil => exact ⟨m, [], keeps, rfl⟩
  | cons deed rest ih =>
      obtain ⟨middle, first, kept, performed⟩ := keeps.step deed
      obtain ⟨next, more, going, performing⟩ := ih kept
      refine ⟨next, first ++ more, going, ?_⟩
      rw [performing, performed, Buffer.performAll, Buffer.performAll, Buffer.performAll,
        List.foldl_append]

/-- Loading keeps a text if no line of it ends in a carriage return. -/
theorem text_ofText {text : List Char}
    (ends : ∀ line ∈ splitLines text, line.getLast? ≠ some '\r') :
    (Document.ofText text).text = text := by
  have kept : ∀ line ∈ splitLines text, Line.dropReturns line = id line :=
    fun line mem => dropReturns_of_getLast? (ends line mem)
  calc joinLines ((splitLines text).map Line.dropReturns)
    _ = joinLines (splitLines text) := by rw [List.map_congr_left kept, List.map_id]
    _ = text := joinWith_splitOn '\n' text

/-- In a run on a text the change tick is the version. All that happens to the buffer comes from
requests to it, and the version grows by one for each of them that makes a new version: an edit that
is recorded, or a step through the history. So two states of one version have the same lines, and a
document that is not dirty holds what was saved last, or else what was loaded: the text without the
carriage returns at the ends of its lines. -/
theorem versions_of_deeds (name file : Option String) (text : List Char) (settings : Settings)
    (path : Option FilePath) (widgets : Bool) (files : FileTree) (earlier later : List Deed) :
    let loaded := Desk.onText name file text settings path widgets files
    let desk := loaded.after earlier
    ((∀ line ∈ splitLines text, line.getLast? ≠ some '\r') → loaded.kept = text) ∧
    ∃ b c, desk.buffer? = some b ∧ (desk.after later).buffer? = some c ∧
      c.changeTick = c.document.version ∧
      (∃ requests, c = b.performAll requests ∧
        c.document.version = b.document.version + Buffer.advancesAmong requests b) ∧
      (∀ op unmarked, ((desk.after later).step (.ask op unmarked)).buffer? = some (c.perform op) ∧
        Buffer.Counted c op (c.perform op)) ∧
      (c.document.version = b.document.version → c.document.lines = b.document.lines) ∧
      (c.document.dirty = false → c.text = (desk.after later).kept) := by
  intro loaded desk
  refine ⟨text_ofText, ?_⟩
  obtain ⟨m, -, before, -⟩ :=
    (Desk.keeps_onText name file text settings path widgets files).after earlier
  obtain ⟨next, requests, keeps, performed⟩ := before.after later
  have first : desk.buffer? = some m.workspace.buffer := by
    rw [Desk.buffer?, before.shows]
    rfl
  have last : (desk.after later).buffer? = some next.workspace.buffer := by
    rw [Desk.buffer?, keeps.shows]
    rfl
  refine ⟨_, _, first, last, keeps.tick, ⟨requests, performed, ?_⟩, ?_, ?_, keeps.clean⟩
  · rw [performed, Buffer.version_performAll]
  · intro op unmarked
    exact ⟨keeps.buffer?_ask unmarked, Buffer.counted_perform _ op⟩
  · rw [performed]
    exact Buffer.lines_performAll _ requests

/-- A text that ends in a carriage return is not what the buffer holds, though nobody has edited
it. -/
theorem text_ofText_of_return :
    (Buffer.ofText none none ['a', '\r']).document.dirty = false ∧
      (Buffer.ofText none none ['a', '\r']).text ≠ ['a', '\r'] := by decide

end App

end LinkerScriptEditor
