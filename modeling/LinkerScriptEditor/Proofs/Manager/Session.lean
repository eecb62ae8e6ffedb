import LinkerScriptEditor.Proofs.Manager.Press

/-!
# Sessions

A session starts with the manager of a text. Keys are pressed, and in between the host moves the
cursor within the document and changes the settings of indentation. Every manager that a session
comes to is ready for any key.
-/

namespace LinkerScriptEditor

open Traced

namespace Settings

/-- What a host does to the settings. -/
inductive Change
  | unit (value : Datum)
  | style (value : Datum)
  | resetUnit
  | resetStyle
  | environment (name : String) (value : Option String)

def Change.make : Change → Traced Settings Unit
  | unit value => setUnit value
  | style value => setStyle value
  | resetUnit => modify Settings.resetUnit
  | resetStyle => modify Settings.resetStyle
  | environment name value => setVariable name value

variable {s : Settings}

/-- Only an override could make the unit anything but positive. -/
theorem unit_pos_iff : 0 < s.unit ↔ ∀ n, s.unitOverride = some n → 0 < n := by
  rw [Settings.unit]
  cases s.unitOverride with
  | some n =>
      constructor
      · rintro pos m ⟨⟩
        exact pos
      · intro pos
        exact pos n rfl
  | none =>
      refine iff_of_true ?_ nofun
      rw [Option.getD_none]
      cases read : s.unitText?.bind unitOfText? with
      | none => decide
      | some n =>
          obtain ⟨text, -, parsed⟩ := Option.bind_eq_some_iff.mp read
          exact of_decide_eq_true (Option.filter_eq_some_iff.mp parsed).2

/-- The unit stays positive, also if a change is refused. -/
theorem Change.unit_pos (change : Change) (pos : 0 < s.unit) :
    0 < (effect change.make s).2.unit := by
  rw [unit_pos_iff] at pos ⊢
  -- only the first kind of change writes an override, and it checks what it writes
  cases change with
  | unit value =>
      cases value with
      | int n =>
          change ∀ m, (effect (if 0 < n then _ else _) s).2.unitOverride = some m → 0 < m
          split
          · next positive =>
              rintro m ⟨⟩
              exact positive
          · exact pos
      | _ => exact pos
  | style value =>
      change ∀ n, (effect (setStyle value) s).2.unitOverride = some n → 0 < n
      rw [setStyle]
      split <;> exact pos
  | resetUnit => nofun
  | resetStyle => exact pos
  | environment name value =>
      change ∀ n, (effect (setVariable name value) s).2.unitOverride = some n → 0 < n
      rw [setVariable, effect_bind_of_ok (effect_get s), effect_bind, effect_ofExcept]
      cases value with
      | none => exact pos
      | some value =>
          dsimp only
          cases Environment.set name value s.environment with
          | error fault => exact pos
          | ok environment => exact pos

end Settings

namespace Manager

/-- A key is pressed, or the host moves the cursor or changes the settings. -/
inductive Step
  | press (key : KeyPress)
  | moveCursor (p : Position)
  | configure (change : Settings.Change)

namespace Step

/-- The manager after a step, whether or not what was asked for is refused. -/
def perform : Step → Manager → Manager
  | press key, m => (Manager.press key m).state
  | moveCursor p, m =>
    { m with workspace := { m.workspace with buffer := m.workspace.buffer.setCursor p } }
  | configure change, m => (onWorkspace (Workspace.onSettings change.make) m).state

/-- The host keeps the cursor within the document. -/
def Valid (m : Manager) : Step → Prop
  | moveCursor p => p.Within m.workspace.buffer.document.lines
  | _ => True

end Step

/-- What a session on a text can come to. -/
inductive Reachable : Manager → Prop
  | start (name path : Option String) (text : List Char) (environment : Environment) :
      Reachable (ofBuffer (.ofText name path text) (.ofEnvironment environment))
  | step {m : Manager} {step : Step} (before : Reachable m) (valid : step.Valid m) :
      Reachable (step.perform m)

theorem ready_start (name path : Option String) (text : List Char) (environment : Environment) :
    Ready (ofBuffer (.ofText name path text) (.ofEnvironment environment)) := by
  rw [ofBuffer_eq]
  refine ⟨⟨Buffer.sound_ofText name path text, rfl, ?_⟩, rfl, ⟨[], rfl⟩, rfl, ?_⟩
  · apply Settings.unit_pos_iff.mpr
    nofun
  · exact LinkerScriptMode.keymap_serves

theorem Ready.step {m : Manager} (ready : m.Ready) {step : Step} (valid : step.Valid m) :
    (step.perform m).Ready := by
  cases step with
  | press key =>
      have pressed := ready.press key
      rw [Step.perform, state_eq]
      exact pressed.ready
  | moveCursor p =>
      have frame := Workspace.frame_buffer m.workspace (b := m.workspace.buffer.setCursor p) rfl
      exact ready.frame frame (ready.workspace.sound.setCursor valid)
  | configure change =>
      constructor
      · exact ⟨ready.workspace.sound, ready.workspace.unselected,
          change.unit_pos ready.workspace.unit_pos⟩
      · exact ready.active
      · exact ready.mode
      · exact ready.behaviour
      · exact ready.keymap

/-- Every manager that a session comes to is ready for a key. -/
theorem Reachable.ready {m : Manager} (reachable : Reachable m) : m.Ready := by
  induction reachable with
  | start name path text environment => exact ready_start name path text environment
  | step before valid ih => exact ih.step valid

/-- In a session there is always a line, no line holds a line feed, the cursor is within the lines,
and every key is answered. Only a key that runs an action that writes margins may be refused, and
only if some margin does not fit into memory. -/
theorem Reachable.press_answered {m : Manager} (reachable : Reachable m) :
    0 < m.workspace.buffer.document.lineCount ∧
      (∀ line ∈ m.workspace.buffer.document.lines, '\n' ∉ line) ∧
      m.workspace.buffer.cursor.Within m.workspace.buffer.document.lines ∧
      ∀ key, (∃ result, (press key m).outcome = .ok result) ∨
        ∃ fault a, (press key m).outcome = .error fault ∧ fault.IsLimit ∧
          m.runs? key = some a ∧ a.id ∈ LinkerScriptMode.indenting ∧ ¬m.workspace.Roomy := by
  have ready := reachable.ready
  have sound := ready.workspace.sound
  refine ⟨sound.lines.length_pos, sound.lines.free, sound.cursor, ?_⟩
  intro key
  have pressed := ready.press key
  rw [outcome_eq]
  rcases ran : effect (press key) m with ⟨outcome, after⟩
  rw [ran] at pressed
  cases pressed with
  | @done result _ stays ready => exact .inl ⟨result, rfl⟩
  | @refused fault _ limit narrow ready =>
      right
      obtain ⟨a, refused⟩ := Classical.not_forall.mp narrow
      obtain ⟨runs, refused⟩ := Classical.not_imp.mp refused
      obtain ⟨indents, narrow⟩ := Classical.not_imp.mp refused
      exact ⟨fault, a, rfl, limit, runs, indents, narrow⟩

/-- After two characters typed by one key the next line can be indented. -/
theorem press_answered_after_typing :
    let m := Step.perform (.press ⟨"a", [], some "\x7ba"⟩)
      (ofBuffer (.ofText none none "x\n\x7d".toList) (.ofEnvironment []))
    Reachable m ∧ m.workspace.buffer.cursor.Within m.workspace.buffer.document.lines ∧
      ∃ result, (press ⟨"ENTER", [], none⟩ m).outcome = .ok result := by
  intro m
  have reachable : Reachable m := .step (.start none none _ []) trivial
  obtain ⟨-, -, within, answered⟩ := reachable.press_answered
  have lines : m.workspace.buffer.document.lines = ["\x7bax".toList, "\x7d".toList] := by rfl
  have unit : m.workspace.settings.unit = 4 := by rfl
  have roomy : m.workspace.Roomy := by
    constructor
    · rw [lines, unit]
      decide
    · rw [Document.lastRow, Document.lineCount, lines, unit]
      decide
  refine ⟨reachable, within, ?_⟩
  rcases answered ⟨"ENTER", [], none⟩ with answer | ⟨fault, a, -, -, -, -, narrow⟩
  · exact answer
  · exact absurd roomy narrow

/-- A unit of twenty-one digits is accepted, but no line is indented by it. -/
theorem press_refused_of_wide_unit :
    let start := ofBuffer (.ofText none none "\x7b\nx".toList) (.ofEnvironment [])
    let below := Step.perform (.moveCursor ⟨1, 0⟩) start
    let m := Step.perform (.configure (.unit (.int 100000000000000000000))) below
    Reachable m ∧ (press ⟨"TAB", [], none⟩ m).outcome = .error .marginTooWide := by
  constructor
  · apply Reachable.step
    · apply Reachable.step (.start none none _ [])
      change Position.Within ⟨1, 0⟩ _
      decide
    · trivial
  · rfl

end Manager

end LinkerScriptEditor
