import LinkerScriptEditor.Proofs.Manager.Handling
import LinkerScriptEditor.View

/-!
# What a view shows

A view that is given a key writes a log line, lets the manager handle the key, and then shows the
manager as it is by then: the buffer first, and then the status line. Showing changes nothing but
the notices.
-/

namespace LinkerScriptEditor.View

open Traced Manager

/-- Where the cursor is, in which mode, and the settings. -/
def standing (m : Manager) : Except Fault String := do
  let row ← Numeral.write (m.workspace.buffer.cursor.row + 1)
  let column ← Numeral.write (m.workspace.buffer.cursor.column + 1)
  let mode := m.workspace.activeName?.getD "-"
  let settings := m.workspace.settings
  return s!"{mode} | Ln {row}, Col {column} | indent {settings.unit} ({settings.style.name})"

/-- The message of a result, if it has one, goes behind the status. -/
def withMessage (status : String) (result : KeyResult) : String :=
  match result.message.filter (· != "") with
  | some message => s!"{status} | {message}"
  | none => status

/-- The rendered buffer, and a mirror of it that names the active mode. -/
def picture (m : Manager) : ViewCall :=
  let b := m.workspace.buffer
  .buffer (render m) ⟨b.text, b.cursor, b.selection, b.document.version,
    [("mode", .str (m.workspace.activeName?.getD ""))]⟩

/-- The manager after a call of a view. -/
def noting (v : View) (c : ViewCall) (m : Manager) : Manager :=
  { m with workspace := m.workspace.noteView v.id c }

/-- The key that a view hands on. -/
def given (key : KeyPress) : KeyPress :=
  { key with modifiers := key.modifiers.map CharClass.upperText }

/-- The manager when it gets a key from a view. -/
def asked (v : View) (key : KeyPress) (m : Manager) : Manager :=
  v.noting (.log (m.workspace.logLine "key ->" [("key", .str key.key), ("text", .ofText? key.text),
    ("mods", .tuple ((given key).modifiers.map .str))])) m

/-- What the manager makes of a key that it gets from a view. -/
def handled (v : View) (key : KeyPress) (m : Manager) : Except Fault KeyResult × Manager :=
  effect (Manager.press (given key)) (v.asked key m)

/-- The manager when the view has shown the buffer. -/
def pictured (v : View) (result : KeyResult) (m : Manager) : Manager :=
  v.noting (picture m) (v.noting (.log (m.workspace.logLine "result <-"
    [("consumed", .ofBool? result.consumed), ("status", .ofText? result.status),
      ("message", .ofText? result.message)])) m)

variable {v : View} {key : KeyPress} {m after : Manager}

theorem effect_log (v : View) (heading : String) (fields : OrderedMap String Datum) (m : Manager) :
    effect (v.log heading fields) m =
      (.ok (), v.noting (.log (m.workspace.logLine heading fields)) m) := rfl

theorem effect_refresh (v : View) (m : Manager) :
    effect v.refresh m = (.ok (), v.noting (picture m) m) := rfl

theorem effect_statusLine (m : Manager) : effect statusLine m = (standing m, m) := by
  rw [statusLine, standing, effect_bind_of_ok (effect_get m)]
  dsimp only
  rw [effect_bind, effect_ofExcept]
  cases Numeral.write (m.workspace.buffer.cursor.row + 1) with
  | error fault => rfl
  | ok row =>
      dsimp only
      rw [effect_bind, effect_ofExcept]
      cases Numeral.write (m.workspace.buffer.cursor.column + 1) with
      | error fault => rfl
      | ok column =>
          dsimp only
          rw [effect_bind_of_ok (effect_onWorkspace (Workspace.effect_readUnit _)),
            effect_bind_of_ok (effect_onWorkspace (Workspace.effect_readStyle _))]
          rfl

theorem effect_press_of_error {fault : Fault} (refused : v.handled key m = (.error fault, after)) :
    effect (v.press key) m = (.error fault, after) := by
  rw [press, effect_bind_of_ok (effect_log v _ _ m)]
  exact effect_bind_of_error refused _

/-- The status line may be refused, but then the buffer has been shown. -/
theorem effect_press_of_ok {result : KeyResult} (answered : v.handled key m = (.ok result, after)) :
    effect (v.press key) m = match standing after with
      | .error fault => (.error fault, v.pictured result after)
      | .ok status =>
        (.ok result, v.noting (.status (withMessage status result)) (v.pictured result after)) := by
  -- the notices count for nothing that a view shows
  have shown : effect statusLine (v.pictured result after) =
      (standing after, v.pictured result after) := effect_statusLine _
  rw [press, effect_bind_of_ok (effect_log v _ _ m)]
  dsimp only
  refine (effect_bind_of_ok answered _).trans ?_
  rw [effect_bind_of_ok (effect_log v _ _ after)]
  refine (effect_bind_of_ok (effect_refresh v _) _).trans ?_
  refine (effect_bind statusLine _ (v.pictured result after)).trans ?_
  rw [shown]
  cases standing after with
  | error fault => rfl
  | ok status =>
      dsimp only
      rw [withMessage]
      cases result.message.filter (· != "") with
      | none => rfl
      | some message => rfl

end LinkerScriptEditor.View
