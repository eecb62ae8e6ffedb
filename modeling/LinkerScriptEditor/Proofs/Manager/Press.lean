import LinkerScriptEditor.Proofs.Command.Mild
import LinkerScriptEditor.Proofs.Manager.Handling

/-!
# Key presses

A manager is ready for a key if the linker script mode is active, its keymap serves the mode, and
its workspace is ready for a command. Whatever the key does, the manager is ready for the next one.
-/

namespace LinkerScriptEditor

open Traced Workspace

/-- No key types a carriage return. -/
theorem KeyPress.not_mem_of_isPrintable {key : KeyPress} (printable : key.isPrintable = true) :
    '\r' ∉ (key.text.getD "").toList := by
  rw [isPrintable] at printable
  cases text : key.text with
  | none => exact List.not_mem_nil
  | some text =>
      simp only [text, Bool.and_eq_true, Bool.or_eq_true] at printable
      rcases printable.2 with tab | plain
      · rw [Option.getD_some, beq_iff_eq.mp tab]
        decide
      · intro mem
        have shown := List.all_eq_true.mp plain '\r' mem
        exact absurd shown (by decide)

theorem Command.Safe.handler {w : Workspace} {room : Prop} {command : Traced Workspace KeyResult}
    (safe : Safe w room (effect command w)) (id description : String) :
    let ran := effect (LinkerScriptMode.action id description command).handler w
    Safe w room (ran.1.map Outcome.toResult, ran.2) := by
  intro ran
  have same : (ran.1.map Outcome.toResult, ran.2) = effect command w :=
    LinkerScriptMode.effect_handler id description command w
  rw [same]
  exact safe

namespace LinkerScriptMode

/-- The actions that write margins. -/
def indenting : List String := ["indent.line", "indent.newline", "indent.region"]

end LinkerScriptMode

/-- Every action of the mode is safe in a workspace that is ready, and only those that write
margins need room. -/
theorem Workspace.Ready.safe_handler {w : Workspace} (ready : w.Ready) {a : Action Handler}
    (mem : a ∈ LinkerScriptMode.actions) :
    Command.Safe w (a.id ∈ LinkerScriptMode.indenting → w.Roomy)
      ((effect a.handler w).1.map Outcome.toResult, (effect a.handler w).2) := by
  have sound := ready.sound
  have row := sound.cursor.row_lt
  simp only [LinkerScriptMode.actions, List.mem_cons, List.not_mem_nil, or_false] at mem
  -- in the order of the table: three actions write margins, the other seven cannot be refused
  rcases mem with rfl | rfl | rfl | rfl | rfl | rfl | rfl | rfl | rfl | rfl
  · apply ((Command.safe_indentLine ready).handler _ _).mono
    intro room
    have roomy := room (by decide)
    exact roomy.above (by omega)
  · exact ((Command.safe_newlineAndIndent ready).handler _ _).mono fun room => room (by decide)
  · exact ((Command.safe_indentRegion ready).handler _ _).mono fun room => room (by decide)
  · exact ((Command.safe_deleteBackward sound).handler _ _).mono fun _ => trivial
  · exact ((Command.safe_undo sound).handler _ _).mono fun _ => trivial
  · exact ((Command.safe_redo sound).handler _ _).mono fun _ => trivial
  · exact ((Command.safe_moveCursor sound .left).handler _ _).mono fun _ => trivial
  · exact ((Command.safe_moveCursor sound .right).handler _ _).mono fun _ => trivial
  · exact ((Command.safe_moveCursor sound .up).handler _ _).mono fun _ => trivial
  · exact ((Command.safe_moveCursor sound .down).handler _ _).mono fun _ => trivial

namespace Manager

section Handled

variable {m : Manager} {key : KeyPress} {ran : Except Fault KeyResult × Manager}
  (listed : ∀ entry ∈ m.keymap.actions, entry.2 ∈ LinkerScriptMode.actions)
include listed

/-- With the actions of the mode a key asks for no other mode. -/
theorem Handled.stays (handled : Handled key m ran) {result : KeyResult}
    (answered : ran.1 = .ok result) : result.switchTo = none := by
  cases handled with
  | ran runs run =>
      obtain ⟨id, mem⟩ := Keymap.mem_of_bound? runs
      have mild := Command.mild_handler (w := (m.pend []).workspace) (listed _ mem)
      rw [run] at mild
      exact mild.stays result answered
  | waits =>
      cases answered
      rfl
  | @typed outcome =>
      cases outcome with
      | error fault => cases answered
      | ok delta =>
          cases answered
          rfl
  | left =>
      cases answered
      rfl
  | lost => cases answered

/-- Apart from the pending keys, all that a key does is the work of commands. -/
theorem Handled.worked (handled : Handled key m ran) :
    ∃ keys w, ran.2 = { m with workspace := w } ∧ (m.pend keys).workspace.Worked w := by
  cases handled with
  | ran runs run =>
      obtain ⟨id, mem⟩ := Keymap.mem_of_bound? runs
      have mild := Command.mild_handler (w := (m.pend []).workspace) (listed _ mem)
      rw [run] at mild
      exact ⟨[], _, rfl, mild.worked⟩
  | waits => exact ⟨_, _, rfl, .refl _⟩
  | @typed _ b _ printable run =>
      let op : Buffer.Operation := .insertText (key.text.getD "").toList none
      have typed : m.workspace.buffer.perform op = b := congrArg Prod.snd run
      refine ⟨[], _, rfl, ?_⟩
      rw [← typed]
      exact .edit op (KeyPress.not_mem_of_isPrintable printable) (.refl _)
  | left => exact ⟨_, _, rfl, .refl _⟩
  | lost => exact ⟨_, _, rfl, .refl _⟩

theorem InMode.press_handled (inMode : m.InMode) (key : KeyPress) :
    Handled key m (effect (Manager.press key) m) :=
  inMode.press key fun _ handled _ answered => handled.stays listed answered

end Handled

/-- The linker script mode is active and served by the keymap, and the workspace is ready. -/
structure Ready (m : Manager) : Prop where
  workspace : m.workspace.Ready
  active : m.workspace.active = some LinkerScriptMode.name
  mode : ∃ pending, OrderedMap.get? LinkerScriptMode.name m.workspace.modes =
    some ⟨LinkerScriptMode.name, pending⟩
  behaviour : m.behaviour LinkerScriptMode.name = .linkerScript
  keymap : m.keymap.Serves LinkerScriptMode.name LinkerScriptMode.actions

/-- What a key may come to: the mode stays, or the key is refused for want of room. -/
inductive Pressed (room : Prop) : Except Fault KeyResult × Manager → Prop
  | done {result : KeyResult} {after : Manager} (stays : result.switchTo = none)
      (ready : after.Ready) : Pressed room (.ok result, after)
  | refused {fault : Fault} {after : Manager} (limit : fault.IsLimit) (narrow : ¬room)
      (ready : after.Ready) : Pressed room (.error fault, after)

/-- If the key runs an action that writes margins, there is room for them. -/
def HasRoom (key : KeyPress) (m : Manager) : Prop :=
  ∀ a, m.runs? key = some a → a.id ∈ LinkerScriptMode.indenting → m.workspace.Roomy

variable {m : Manager}

theorem Ready.frame (ready : m.Ready) {w : Workspace} (frame : m.workspace.Frame w)
    (sound : w.buffer.Sound) : Ready { m with workspace := w } where
  workspace := ready.workspace.frame frame sound
  active := frame.active.trans ready.active
  mode := by
    rw [frame.modes]
    exact ready.mode
  behaviour := ready.behaviour
  keymap := ready.keymap

theorem Ready.inMode (ready : m.Ready) : m.InMode := ⟨ready.active, ready.mode, ready.behaviour⟩

theorem Ready.pend (ready : m.Ready) (keys : List String) : (m.pend keys).Ready where
  workspace := ⟨ready.workspace.sound, ready.workspace.unselected, ready.workspace.unit_pos⟩
  active := ready.active
  mode := (ready.inMode.pend keys).mode
  behaviour := ready.behaviour
  keymap := ready.keymap

theorem Pressed.mono {room roomier : Prop} {effect : Except Fault KeyResult × Manager}
    (pressed : Pressed room effect) (enough : roomier → room) : Pressed roomier effect := by
  cases pressed with
  | done stays ready => exact .done stays ready
  | refused limit narrow ready => exact .refused limit (fun roomy => narrow (enough roomy)) ready

theorem Pressed.ready {room : Prop} {effect : Except Fault KeyResult × Manager}
    (pressed : Pressed room effect) : effect.2.Ready := by
  cases pressed with
  | done stays ready => exact ready
  | refused limit narrow ready => exact ready

theorem Ready.handled (ready : m.Ready) {key : KeyPress} {ran : Except Fault KeyResult × Manager}
    (handled : Handled key m ran) : Pressed (m.HasRoom key) ran := by
  have idle := ready.pend []
  cases handled with
  | @ran a outcome after runs run =>
      obtain ⟨id, listed⟩ := Keymap.mem_of_bound? runs
      have safe := idle.workspace.safe_handler (ready.keymap.listed _ listed)
      rw [run] at safe
      dsimp only at safe
      have narrow : ¬(a.id ∈ LinkerScriptMode.indenting → (m.pend []).workspace.Roomy) →
          ¬m.HasRoom key := by
        intro narrow room
        refine narrow fun indents => ?_
        obtain ⟨lines, rows⟩ := room a runs indents
        exact ⟨lines, rows⟩
      generalize outcome.map Outcome.toResult = result at safe ⊢
      cases safe with
      | done stays sound frame => exact .done stays (idle.frame frame sound)
      | refused limit small sound frame =>
          exact .refused limit (narrow small) (idle.frame frame sound)
  | waits => exact .done rfl (ready.pend _)
  | typed _ _ run =>
      have cursor := ready.workspace.sound.cursor
      obtain ⟨delta, after, replaced, sound, selection⟩ :=
        ready.workspace.sound.effect_replaceRange cursor cursor (key.text.getD "").toList
          "insert_text"
      cases run.symm.trans ((Buffer.effect_insertText _ none _).trans replaced)
      exact .done rfl (idle.frame (Workspace.frame_buffer _ selection) sound)
  | left => exact .done rfl idle
  | lost _ refused =>
      obtain ⟨resolution, resolved⟩ := ready.keymap.resolve (m.keysWith key)
      cases refused.symm.trans resolved

/-- A manager that is ready for a key is ready for the next one, and the key is refused only if
there is no room for what it does. -/
theorem Ready.press (ready : m.Ready) (key : KeyPress) :
    Pressed (m.HasRoom key) (effect (press key) m) :=
  ready.handled (ready.inMode.press_handled ready.keymap.listed key)

end Manager

end LinkerScriptEditor
