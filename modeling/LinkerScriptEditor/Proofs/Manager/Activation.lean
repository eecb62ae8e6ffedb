import LinkerScriptEditor.Manager
import LinkerScriptEditor.Proofs.Log.Preserves
import LinkerScriptEditor.Proofs.OrderedMap

/-!
# What a switch of modes keeps

A switch of modes works on the workspace alone: it empties or makes modes, changes services, makes
announcements, and runs what the host's modes do when they are entered or left. A property that
outlasts the first three holds after a switch if the host's modes keep it.
-/

namespace LinkerScriptEditor

open Traced

/-- What a manager itself does to a workspace when it switches modes leaves a property standing. -/
structure Workspace.Outlasts (holds : Workspace → Prop) : Prop where
  modes : ∀ {w : Workspace} (name : String) {state : ModeState}, state.pending = [] →
    holds w → holds (w.putMode name state)
  services : ∀ {w : Workspace} (services : OrderedMap String Service),
    holds w → holds { w with services }
  active : ∀ {w : Workspace} (active : Option String), holds w → holds { w with active }
  emitted : ∀ {w : Workspace} (event : String) (payload : Datum),
    holds w → holds (w.emitted event payload)

/-- A host's mode keeps a property when it is entered or left. -/
def Behaviour.Keeps (holds : Workspace → Prop) : Behaviour → Prop
  | .linkerScript => True
  | .host mode => (∀ previous, Preserves holds (mode.enter previous)) ∧
      ∀ next, Preserves holds (mode.leave next)

namespace Manager

/-- Only the workspace is different, and it has a property. -/
structure Switches (holds : Workspace → Prop) (m after : Manager) : Prop where
  workspace : holds after.workspace
  keymap : after.keymap = m.keymap
  descriptors : after.descriptors = m.descriptors

variable {holds : Workspace → Prop} {m : Manager}

theorem switches_changeWorkspace {f : Workspace → Workspace} (keeps : ∀ w, holds w → holds (f w)) :
    Preserves (Switches holds m) (changeWorkspace f) :=
  fun _ before => ⟨keeps _ before.workspace, before.keymap, before.descriptors⟩

theorem switches_onWorkspace {α : Type} {x : Traced Workspace α} (keeps : Preserves holds x) :
    Preserves (Switches holds m) (onWorkspace x) :=
  fun _ before => ⟨keeps _ before.workspace, before.keymap, before.descriptors⟩

theorem Switches.behaviour {after : Manager} (switches : Switches holds m after)
    (hooks : ∀ entry ∈ m.descriptors, entry.2.behaviour.Keeps holds) (mode : String) :
    (after.behaviour mode).Keeps holds := by
  rw [Manager.behaviour, switches.descriptors]
  cases known : OrderedMap.get? mode m.descriptors with
  | none => trivial
  | some d => exact hooks _ (OrderedMap.mem_of_get? known)

/-- A mode starts without pending keys. -/
theorem pending_of_start {w : Workspace} {behaviour : Behaviour} {state : ModeState}
    (started : start w behaviour = .ok state) : state.pending = [] := by
  cases behaviour with
  | linkerScript =>
      rw [start] at started
      split at started
      · cases started
        rfl
      · cases started
  | host mode =>
      cases started
      rfl

section Switching

variable (outlasts : Workspace.Outlasts holds)
include outlasts

theorem switches_emit (event : String) (payload : Datum) :
    Preserves (Switches holds m) (onWorkspace (Workspace.emit event payload)) :=
  switches_onWorkspace fun _ before => outlasts.emitted event payload before

theorem switches_instantiate (d : Descriptor) :
    Preserves (Switches holds m) (instantiate d) := by
  refine preserves_get_bind fun current _ => ?_
  dsimp only
  split
  · exact preserves_pure _
  · have made : ∀ state : ModeState, state.pending = [] → Preserves (Switches holds m) (do
        changeWorkspace (·.putMode d.name state)
        return state) := by
      intro state idle
      refine Preserves.bind (switches_changeWorkspace fun _ => outlasts.modes d.name idle) ?_
      exact fun _ => preserves_pure state
    exact Preserves.bind_of (preserves_of_still fun _ => rfl)
      (fun _ _ _ started => pending_of_start started) made

variable (hooks : ∀ entry ∈ m.descriptors, entry.2.behaviour.Keeps holds)
include hooks

theorem switches_enter (mode : String) (previous : Option String) :
    Preserves (Switches holds m) (enter mode previous) := by
  refine preserves_get_bind fun current switches => ?_
  have keeps := switches.behaviour hooks mode
  cases known : current.behaviour mode with
  | linkerScript =>
      refine Preserves.bind (switches_changeWorkspace fun _ => outlasts.services _) fun _ => ?_
      exact switches_emit outlasts _ _
  | host host =>
      rw [known] at keeps
      exact switches_onWorkspace (keeps.1 previous)

theorem switches_leave (mode : String) (next : Option String) :
    Preserves (Switches holds m) (leave mode next) := by
  refine preserves_get_bind fun current switches => ?_
  have keeps := switches.behaviour hooks mode
  cases known : current.behaviour mode with
  | linkerScript =>
      refine Preserves.bind (switches_changeWorkspace fun w before => ?_) fun _ => ?_
      · split
        · exact outlasts.modes mode rfl before
        · exact before
      · refine Preserves.bind (switches_changeWorkspace fun w before => ?_) fun _ => ?_
        · rw [withdrawTracker]
          split
          · exact outlasts.services _ before
          · exact before
        · exact switches_emit outlasts _ _
  | host host =>
      rw [known] at keeps
      exact switches_onWorkspace (keeps.2 next)

/-- Whatever comes of it, a switch keeps what outlasts it. -/
theorem switches_activate (name : String) :
    Preserves (Switches holds m) (activate name) := by
  refine preserves_get_bind fun current _ => ?_
  refine Preserves.bind (preserves_of_still fun _ => rfl) fun d => ?_
  refine preserves_get_bind fun current _ => ?_
  dsimp only
  split
  · exact preserves_pure _
  · have opens : Preserves (Switches holds m) (do
        let state ← instantiate d
        changeWorkspace ({ · with active := some name })
        enter name current.workspace.activeName?
        onWorkspace (Workspace.emit "mode.enter" (.str name))
        event .info "mode.switch" [("mode", .str name)]
        return state.name) := by
      refine (switches_instantiate outlasts d).bind fun state => ?_
      refine Preserves.bind (switches_changeWorkspace fun _ => outlasts.active _) fun _ => ?_
      refine (switches_enter outlasts hooks _ _).bind fun _ => ?_
      refine (switches_emit outlasts _ _).bind fun _ => ?_
      exact Preserves.bind (preserves_of_still fun _ => rfl) fun _ => preserves_pure state.name
    split
    · refine (switches_leave outlasts hooks _ _).bind fun _ => ?_
      exact (switches_emit outlasts _ _).bind fun _ => opens
    · exact opens

end Switching

end Manager

end LinkerScriptEditor
