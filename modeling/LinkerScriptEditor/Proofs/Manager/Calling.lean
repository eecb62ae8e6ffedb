import LinkerScriptEditor.Proofs.Manager.Press
import LinkerScriptEditor.Proofs.OrderedMap

/-!
# Calling a command

A command of the linker script mode is called by the name of its action or by a key that stands for
it, and no two of its actions share a name. Either way the command runs on the workspace as it is,
but for the keys that were pending, and the mode remains what it was.
-/

namespace LinkerScriptEditor

open Traced

namespace LinkerScriptMode

/-- An action of the mode is known by its name. -/
theorem action_unique {a other : Action Handler} (mem : a ∈ actions) (otherMem : other ∈ actions)
    (same : a.id = other.id) : a = other := by
  have distinct : (actions.map Action.id).Nodup := by decide
  exact List.inj_on_of_nodup_map distinct mem otherMem same

theorem keymap_action {a : Action Handler} (mem : a ∈ actions) : keymap.action a.id = .ok a := by
  have distinct : (OrderedMap.keys keymap.actions).Nodup := by
    rw [keymap_actions]
    decide
  have entry : (a.id, a) ∈ keymap.actions := by
    rw [keymap_actions]
    exact List.mem_map_of_mem mem
  rw [Keymap.action, OrderedMap.get?_of_mem distinct entry]

theorem mem_indentLine :
    action "indent.line" "Indent the current line" Command.indentLine ∈ actions := .head _

theorem mem_indentRegion :
    action "indent.region" "Indent the selection, or the whole buffer" Command.indentRegion ∈
      actions := .tail _ (.tail _ (.head _))

end LinkerScriptMode

namespace Manager

/-- The linker script mode is active, with the keymap that comes with it. -/
structure Installed (m : Manager) : Prop where
  inMode : m.InMode
  keymap : m.keymap = LinkerScriptMode.keymap

/-- An action is called by its name or by a key that stands for it. -/
inductive Invokes (id : String) (m : Manager) : Except Fault KeyResult → Manager → Prop
  | named {outcome : Except Fault Outcome} {after : Manager}
      (run : effect (runAction id) m = (outcome, after)) :
      Invokes id m (outcome.map Outcome.toResult) after
  | pressed {key : KeyPress} {a : Action Handler} {outcome : Except Fault KeyResult}
      {after : Manager} (runs : m.runs? key = some a) (same : a.id = id)
      (run : effect (press key) m = (outcome, after)) : Invokes id m outcome after

variable {m : Manager} {id description : String} {command : Traced Workspace KeyResult}
  {outcome : Except Fault KeyResult} {after : Manager}

theorem buffer_ofBuffer (b : Buffer) (s : Settings) : (ofBuffer b s).workspace.buffer = b := by
  rw [ofBuffer_eq]
  rfl

theorem settings_ofBuffer (b : Buffer) (s : Settings) : (ofBuffer b s).workspace.settings = s := by
  rw [ofBuffer_eq]
  rfl

theorem installed_ofBuffer (b : Buffer) (s : Settings) : (ofBuffer b s).Installed := by
  rw [ofBuffer_eq]
  exact ⟨⟨rfl, ⟨[], rfl⟩, rfl⟩, rfl⟩

theorem Installed.listed (installed : m.Installed) :
    ∀ entry ∈ m.keymap.actions, entry.2 ∈ LinkerScriptMode.actions := by
  rw [installed.keymap]
  exact LinkerScriptMode.keymap_serves.listed

theorem Installed.pend (installed : m.Installed) (keys : List String) :
    (m.pend keys).Installed :=
  ⟨installed.inMode.pend keys, installed.keymap⟩

theorem Installed.congr (installed : m.Installed) {w : Workspace}
    (modes : w.modes = m.workspace.modes) (active : w.active = m.workspace.active) :
    Installed { m with workspace := w } :=
  ⟨installed.inMode.congr modes active, installed.keymap⟩

theorem Installed.frame (installed : m.Installed) {w : Workspace} (frame : m.workspace.Frame w) :
    Installed { m with workspace := w } :=
  installed.congr frame.modes frame.active

/-- A key that stands for a command runs it with no keys pending. -/
theorem effect_press_of_id (inMode : m.InMode)
    (listed : ∀ entry ∈ m.keymap.actions, entry.2 ∈ LinkerScriptMode.actions) {key : KeyPress}
    {a : Action Handler} (runs : m.runs? key = some a)
    (mem : LinkerScriptMode.action id description command ∈ LinkerScriptMode.actions)
    (same : a.id = id) :
    effect (press key) m =
      let ran := effect command (m.pend []).workspace
      (ran.1, { m with workspace := ran.2 }) := by
  obtain ⟨entry, found⟩ := Keymap.mem_of_bound? runs
  obtain rfl := LinkerScriptMode.action_unique (listed _ found) mem same
  have answers := LinkerScriptMode.effect_handler id description command (m.pend []).workspace
  have handled := inMode.press_handled listed key
  generalize effect (press key) m = pressed at handled ⊢
  cases handled with
  | @ran a outcome after found run =>
      cases runs.symm.trans found
      rw [run] at answers
      rw [← answers]
  | waits idle => cases runs.symm.trans idle
  | typed idle => cases runs.symm.trans idle
  | left idle => cases runs.symm.trans idle
  | lost idle => cases runs.symm.trans idle

/-- However a command is called, it runs on the workspace, or on the workspace with no keys pending.
-/
theorem Invokes.exists_effect (invokes : Invokes id m outcome after) (installed : m.Installed)
    (mem : LinkerScriptMode.action id description command ∈ LinkerScriptMode.actions) :
    ∃ start, (start = m ∨ start = m.pend []) ∧
      outcome = (effect command start.workspace).1 ∧
      after = { start with workspace := (effect command start.workspace).2 } := by
  cases invokes with
  | @named outcome after run =>
      have found : m.keymap.action id =
          .ok (LinkerScriptMode.action id description command) := by
        rw [installed.keymap]
        exact LinkerScriptMode.keymap_action mem
      have answers := LinkerScriptMode.effect_handler id description command m.workspace
      rw [effect_runAction found] at run
      obtain ⟨rfl, rfl⟩ := Prod.mk.inj run
      obtain ⟨answer, left⟩ := Prod.mk.inj answers
      exact ⟨m, .inl rfl, answer, congrArg (fun w => { m with workspace := w }) left⟩
  | pressed runs same run =>
      rw [effect_press_of_id installed.inMode installed.listed runs mem same] at run
      obtain ⟨rfl, rfl⟩ := Prod.mk.inj run
      exact ⟨m.pend [], .inr rfl, rfl, rfl⟩

/-- The mode is still installed, and the settings are what they were. -/
theorem Invokes.kept (invokes : Invokes id m outcome after) (installed : m.Installed)
    (mem : LinkerScriptMode.action id description command ∈ LinkerScriptMode.actions) :
    after.Installed ∧ after.workspace.settings = m.workspace.settings := by
  obtain ⟨start, same, -, rfl⟩ := invokes.exists_effect installed mem
  have mild := Command.mild_handler (w := start.workspace) mem
  rw [LinkerScriptMode.effect_handler] at mild
  have frame := mild.worked.frame
  rcases same with rfl | rfl
  · exact ⟨installed.frame frame, frame.settings⟩
  · exact ⟨(installed.pend []).frame frame, frame.settings⟩

/-- The key of the region has its modifiers in order. -/
theorem token_region : KeyPress.token ⟨"\\", ["ALT", "CTRL"], none⟩ = "ALT+CTRL+\\" ∧
    Token.normalize "ALT+CTRL+\\" = "ALT+CTRL+\\" := by
  have parts : (splitOn '+' "ALT+CTRL+\\".toList).reverse =
      ["\\".toList, "CTRL".toList, "ALT".toList] := by decide
  have sorted : Token.canonical ["CTRL".toList, "ALT".toList].reverse =
      ["ALT".toList, "CTRL".toList] := List.mergeSort_of_pairwise (by decide +kernel)
  have normal : Token.normalize "ALT+CTRL+\\" = "ALT+CTRL+\\" := by
    rw [Token.normalize, parts]
    dsimp only
    rw [if_neg (by decide), sorted]
    rfl
  have joined : "+".intercalate ["ALT", "CTRL", "\\"] = "ALT+CTRL+\\" := by decide
  exact ⟨(congrArg Token.normalize joined).trans normal, normal⟩

section Keys

variable (keymap : m.keymap = LinkerScriptMode.keymap)
  (idle : m.workspace.activeMode?.map ModeState.pending = some [])
include keymap idle

/-- Unless keys are pending, a key alone is looked up. -/
theorem runs?_of_idle {key : KeyPress} (normal : Token.normalize key.token = key.token) :
    m.runs? key = (OrderedMap.get? [key.token] (LinkerScriptMode.keymap.table
      LinkerScriptMode.name)).bind LinkerScriptMode.keymap.lead? := by
  rw [runs?, keysWith, keymap, idle, Option.getD_some, List.nil_append, Keymap.bound?,
    List.map_singleton, normal]

theorem runs?_tab {key : KeyPress} (token : key.token = "TAB") :
    ∃ a, m.runs? key = some a ∧ a.id = "indent.line" := by
  have normal : Token.normalize "TAB" = "TAB" := by rfl
  rw [← Option.map_eq_some_iff, runs?_of_idle keymap idle (token ▸ normal), token]
  decide +kernel

theorem runs?_region : ∃ a, m.runs? ⟨"\\", ["ALT", "CTRL"], none⟩ = some a ∧
    a.id = "indent.region" := by
  obtain ⟨token, normal⟩ := token_region
  rw [← Option.map_eq_some_iff, runs?_of_idle keymap idle (token ▸ normal), token]
  decide +kernel

end Keys

end Manager

end LinkerScriptEditor
