import LinkerScriptEditor.Proofs.Keymap.Serving
import LinkerScriptEditor.Proofs.Manager.Start
import LinkerScriptEditor.Proofs.Workspace.Frame

/-!
# What a key comes to

Whatever the buffer and the keymap are, a key in the linker script mode runs the action that it
stands for together with the pending keys, is kept with them, is typed, or is left to the host. Only
the buffer, what the action changes, and the pending keys are different afterwards.
-/

namespace LinkerScriptEditor.Manager

open Traced

/-- The keys that wait for more, with another one. -/
def keysWith (key : KeyPress) (m : Manager) : List String :=
  (m.workspace.activeMode?.map ModeState.pending).getD [] ++ [key.token]

/-- The action that a key makes the linker script mode run. -/
def runs? (key : KeyPress) (m : Manager) : Option (Action Handler) :=
  m.keymap.bound? LinkerScriptMode.name (m.keysWith key)

/-- The manager with other pending keys. -/
def pend (keys : List String) (m : Manager) : Manager :=
  { m with workspace := m.workspace.putMode LinkerScriptMode.name ⟨LinkerScriptMode.name, keys⟩ }

variable {m : Manager}

theorem effect_onKeymap {α : Type} {x : Traced (Keymap Handler) α} {outcome : Except Fault α}
    (run : effect x m.keymap = (outcome, m.keymap)) :
    effect (onKeymap x) m = (outcome, m) := by
  rw [onKeymap, effect_zoom]
  change ((effect x m.keymap).1, { m with keymap := (effect x m.keymap).2 }) = _
  rw [run]

theorem effect_onWorkspace {α : Type} {x : Traced Workspace α} {outcome : Except Fault α}
    {w : Workspace} (run : effect x m.workspace = (outcome, w)) :
    effect (onWorkspace x) m = (outcome, { m with workspace := w }) := by
  rw [onWorkspace, effect_zoom]
  change ((effect x m.workspace).1, { m with workspace := (effect x m.workspace).2 }) = _
  rw [run]

theorem effect_changeWorkspace (f : Workspace → Workspace) (m : Manager) :
    effect (changeWorkspace f) m = (.ok (), { m with workspace := f m.workspace }) := rfl

theorem effect_execute (b : Binding) (a : Action Handler) (m : Manager) :
    effect (execute b a) m = ((effect a.handler m.workspace).1.map Outcome.toResult,
      { m with workspace := (effect a.handler m.workspace).2 }) := by
  change effect (Outcome.toResult <$> within _ (onWorkspace a.handler)) m = _
  rw [effect_map, effect_within, effect_onWorkspace rfl]
  rfl

theorem effect_runAction {id : String} {a : Action Handler} (found : m.keymap.action id = .ok a) :
    effect (runAction id) m =
      ((effect a.handler m.workspace).1,
        { m with workspace := (effect a.handler m.workspace).2 }) := by
  rw [runAction, effect_bind_of_ok (effect_get m), found, effect_bind_of_ok (effect_ofExcept _ m)]
  exact effect_onWorkspace rfl

theorem pend_pend (first second : List String) (m : Manager) :
    (m.pend first).pend second = m.pend second := by
  simp [pend, Workspace.putMode, OrderedMap.put_put]

/-- The linker script mode is active. -/
structure InMode (m : Manager) : Prop where
  active : m.workspace.active = some LinkerScriptMode.name
  mode : ∃ pending, OrderedMap.get? LinkerScriptMode.name m.workspace.modes =
    some ⟨LinkerScriptMode.name, pending⟩
  behaviour : m.behaviour LinkerScriptMode.name = .linkerScript

theorem InMode.effect_setPending (inMode : m.InMode) (keys : List String) :
    effect (setPending LinkerScriptMode.name keys) m = (.ok (), m.pend keys) := by
  obtain ⟨pending, mode⟩ := inMode.mode
  change (Except.ok (), { m with workspace := _ }) = _
  dsimp only
  rw [mode]
  rfl

theorem InMode.pend (inMode : m.InMode) (keys : List String) : (m.pend keys).InMode where
  active := inMode.active
  mode := by
    refine ⟨keys, ?_⟩
    change OrderedMap.get? _ (OrderedMap.put _ _ _) = _
    rw [OrderedMap.get?_put, if_pos rfl]
  behaviour := inMode.behaviour

theorem InMode.activeMode?_pend (inMode : m.InMode) (keys : List String) :
    (m.pend keys).workspace.activeMode? = some ⟨LinkerScriptMode.name, keys⟩ := by
  rw [Workspace.activeMode?, (inMode.pend keys).active]
  change OrderedMap.get? _ (OrderedMap.put _ _ _) = _
  rw [OrderedMap.get?_put, if_pos rfl]

theorem InMode.congr (inMode : m.InMode) {w : Workspace} (modes : w.modes = m.workspace.modes)
    (active : w.active = m.workspace.active) : InMode { m with workspace := w } where
  active := active.trans inMode.active
  mode := by
    rw [modes]
    exact inMode.mode
  behaviour := inMode.behaviour

theorem InMode.activeMode (inMode : m.InMode) :
    ∃ pending, m.workspace.activeMode? = some ⟨LinkerScriptMode.name, pending⟩ := by
  obtain ⟨pending, mode⟩ := inMode.mode
  refine ⟨pending, ?_⟩
  rw [Workspace.activeMode?, inMode.active]
  exact mode

variable {key : KeyPress}

/-- What a key in the linker script mode comes to, and the manager that it leaves. -/
inductive Handled (key : KeyPress) (m : Manager) : Except Fault KeyResult × Manager → Prop
  | ran {a : Action Handler} {outcome : Except Fault Outcome} {after : Workspace}
      (runs : m.runs? key = some a)
      (run : effect a.handler (m.pend []).workspace = (outcome, after)) :
      Handled key m (outcome.map Outcome.toResult, { m with workspace := after })
  | waits (idle : m.runs? key = none) :
      Handled key m (.ok (.saying "pending" "awaiting_sequence"), m.pend (m.keysWith key))
  | typed {outcome : Except Fault Delta} {b : Buffer} (idle : m.runs? key = none)
      (printable : key.isPrintable = true)
      (run : effect (Buffer.insertText (key.text.getD "").toList none) m.workspace.buffer =
        (outcome, b)) :
      Handled key m (outcome.map fun _ => .plain "insert",
        { m with workspace := { (m.pend []).workspace with buffer := b } })
  | left (idle : m.runs? key = none) : Handled key m (.ok .unbound, m.pend [])
  | lost {fault : Fault} (idle : m.runs? key = none)
      (refused : effect (Keymap.resolve LinkerScriptMode.name (m.keysWith key)) m.keymap =
        (.error fault, m.keymap)) :
      Handled key m (.error fault, m.pend (m.keysWith key))

theorem effect_type {text : List Char} {outcome : Except Fault Delta} {b : Buffer}
    (run : effect (Buffer.insertText text none) m.workspace.buffer = (outcome, b)) :
    effect (do
        let _ ← onWorkspace (Workspace.onBuffer (Buffer.insertText text none))
        return KeyResult.plain "insert") m =
      (outcome.map fun _ => .plain "insert",
        { m with workspace := { m.workspace with buffer := b } }) := by
  have typed := effect_onWorkspace (Workspace.effect_onBuffer run)
  rw [effect_bind, typed]
  cases outcome <;> rfl

theorem InMode.handled (inMode : m.InMode) {pending : List String}
    (mode : m.workspace.activeMode? = some ⟨LinkerScriptMode.name, pending⟩) (key : KeyPress) :
    Handled key m (effect
      (pressLinkerScript LinkerScriptMode.name ⟨LinkerScriptMode.name, pending⟩ key) m) := by
  have keys : m.keysWith key = pending ++ [key.token] := by
    rw [keysWith, mode]
    rfl
  rw [pressLinkerScript]
  dsimp only
  rw [← keys]
  have waiting := inMode.pend (m.keysWith key)
  have cleared := waiting.effect_setPending []
  rw [pend_pend] at cleared
  obtain ⟨outcome, resolved, finds⟩ :=
    Keymap.effect_resolve LinkerScriptMode.name (m.keysWith key) m.keymap
  have looked : effect (onKeymap (Keymap.resolve LinkerScriptMode.name (m.keysWith key)))
      (m.pend (m.keysWith key)) = (outcome, m.pend (m.keysWith key)) :=
    effect_onKeymap resolved
  have idle : (∀ b a used, outcome ≠ .ok (.found b a used)) → m.runs? key = none := by
    intro none
    apply Option.eq_none_iff_forall_ne_some.mpr
    intro a found
    obtain ⟨b, used, same⟩ := (finds a).mp found
    exact none b a used same
  rw [effect_bind_of_ok (inMode.effect_setPending _)]
  rcases outcome with fault | resolution
  · rw [effect_bind_of_error looked]
    exact .lost (idle nofun) resolved
  · rw [effect_bind_of_ok looked]
    cases resolution with
    | found b a used =>
        dsimp only
        rw [effect_bind_of_ok cleared, effect_execute]
        exact .ran ((finds a).mpr ⟨b, used, rfl⟩) rfl
    | pending used => exact .waits (idle nofun)
    | miss =>
        dsimp only
        rw [effect_bind_of_ok cleared]
        split
        · next printable =>
            rw [effect_type rfl]
            exact .typed (idle nofun) printable rfl
        · exact .left (idle nofun)

/-- A key goes to the active mode, and then the mode is switched if the result asks for it. -/
theorem effect_press {mode : String} {state : ModeState} (active : m.workspace.active = some mode)
    (current : m.workspace.activeMode? = some state) (key : KeyPress) :
    effect (press key) m =
      match effect (match m.behaviour mode with
        | .linkerScript => pressLinkerScript mode state key
        | .host host => onWorkspace (host.press key)) m with
      | (.error fault, after) => (.error fault, after)
      | (.ok result, after) => match result.switchTo.filter (· != "") with
        | none => (.ok result, after)
        | some next => let switched := effect (activate next) after
          (switched.1.map fun _ => result, switched.2) := by
  rw [press, effect_bind_of_ok (effect_get m), active, current]
  dsimp only
  rw [effect_bind, effect_within]
  rcases effect (match m.behaviour mode with
    | .linkerScript => pressLinkerScript mode state key
    | .host host => onWorkspace (host.press key)) m with ⟨fault | result, after⟩
  · rfl
  · dsimp only
    cases result.switchTo.filter (· != "") with
    | none => rfl
    | some next =>
        dsimp only
        rw [effect_bind]
        rcases effect (activate next) after with ⟨_ | _, last⟩ <;> rfl

/-- In the linker script mode a key comes to what it comes to there, as long as no other mode is
asked for. -/
theorem InMode.press (inMode : m.InMode) (key : KeyPress)
    (stays : ∀ ran, Handled key m ran → ∀ result, ran.1 = .ok result → result.switchTo = none) :
    Handled key m (effect (press key) m) := by
  obtain ⟨pending, mode⟩ := inMode.activeMode
  have handled := inMode.handled mode key
  have remains := stays _ handled
  rw [effect_press inMode.active mode, inMode.behaviour]
  dsimp only
  rcases ran : effect (pressLinkerScript LinkerScriptMode.name
    ⟨LinkerScriptMode.name, pending⟩ key) m with ⟨fault | result, after⟩
  · rw [ran] at handled
    exact handled
  · rw [ran] at handled remains
    dsimp only
    rw [remains result rfl]
    exact handled

end LinkerScriptEditor.Manager
