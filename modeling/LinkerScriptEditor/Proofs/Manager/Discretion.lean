import LinkerScriptEditor.Proofs.Manager.Activation
import LinkerScriptEditor.Proofs.Manager.Registration
import LinkerScriptEditor.Proofs.Manager.Spans
import LinkerScriptEditor.Proofs.Workspace.Emission

/-!
# Discreet managers

A manager is discreet if its actions and its host's modes do no more than to work on the workspace
and to emit events. Then all that becomes of the workspace when something is asked of the manager,
is the emissions of what it ran and those of the switches between its modes.
-/

namespace LinkerScriptEditor

open Traced

structure HostMode.Discreet (host : HostMode) : Prop where
  enter : ∀ previous, Workspace.Discreet (host.enter previous)
  leave : ∀ next, Workspace.Discreet (host.leave next)
  press : ∀ key, Workspace.Discreet (host.press key)

def Behaviour.Discreet : Behaviour → Prop
  | .linkerScript => True
  | .host mode => mode.Discreet

structure Descriptor.Discreet (d : Descriptor) : Prop where
  behaviour : d.behaviour.Discreet
  actions : ∀ a ∈ d.actions, Workspace.Discreet a.handler

namespace LinkerScriptMode

theorem discreet_handler {a : Action Handler} (mem : a ∈ actions) :
    Workspace.Discreet a.handler :=
  fun _ => (Command.mild_handler mem).worked.speaks

theorem discreet_descriptor : descriptor.Discreet := ⟨trivial, fun _ mem => discreet_handler mem⟩

end LinkerScriptMode

namespace Manager

structure Discreet (m : Manager) : Prop where
  actions : m.keymap.Provides Workspace.Discreet
  descriptors : ∀ entry ∈ m.descriptors, entry.2.Discreet

/-- A discreet manager whose workspace comes from a given one by emissions. -/
structure Speaks (w : Workspace) (m : Manager) : Prop where
  discreet : m.Discreet
  speaks : w.Speaks m.workspace

variable {w : Workspace} {m : Manager}

theorem discreet_ofWorkspace (w : Workspace) : (ofWorkspace w).Discreet := ⟨nofun, nofun⟩

theorem Discreet.speaks (discreet : m.Discreet) : Speaks m.workspace m := ⟨discreet, .refl _⟩

theorem Discreet.work (discreet : m.Discreet) (w : Workspace) :
    Discreet { m with workspace := w } := ⟨discreet.actions, discreet.descriptors⟩

theorem Discreet.behaviour (discreet : m.Discreet) (mode : String) :
    (m.behaviour mode).Discreet := by
  rw [Manager.behaviour]
  cases known : OrderedMap.get? mode m.descriptors with
  | none => trivial
  | some d => exact (discreet.descriptors _ (OrderedMap.mem_of_get? known)).behaviour

theorem speaks_changeWorkspace {f : Workspace → Workspace}
    (hushed : ∀ w : Workspace, w.Hushed (f w)) :
    Preserves (Speaks w) (changeWorkspace f) := by
  rintro m ⟨discreet, speaks⟩
  exact ⟨discreet.work _, speaks.trans (hushed _).speaks⟩

theorem speaks_onWorkspace {α : Type} {x : Traced Workspace α}
    (discreet : Workspace.Discreet x) : Preserves (Speaks w) (onWorkspace x) := by
  rintro m ⟨managed, speaks⟩
  exact ⟨managed.work _, speaks.trans (discreet _)⟩

theorem speaks_onKeymap {α : Type} {x : Traced (Keymap Handler) α} {wanted : α → Prop}
    (orderly : Orderly (Keymap.Provides Workspace.Discreet) x wanted) :
    Preserves (Speaks w) (onKeymap x) := by
  rintro m ⟨discreet, speaks⟩
  exact ⟨⟨(orderly m.keymap discreet.actions).good, discreet.descriptors⟩, speaks⟩

theorem speaks_ofExcept {α : Type} (e : Except Fault α) : Preserves (Speaks w) (ofExcept e) :=
  preserves_of_still fun _ => rfl

theorem speaks_event (level : LogLevel) (name : String) (data : OrderedMap String Datum) :
    Preserves (Speaks w) (event level name data) := preserves_of_still fun _ => rfl

theorem speaks_setPending (mode : String) (keys : List String) :
    Preserves (Speaks w) (setPending mode keys) := by
  refine speaks_changeWorkspace fun w => ?_
  split
  · exact .of_same rfl rfl
  · exact .of_same rfl rfl

theorem outlasts_speaks (w : Workspace) : Workspace.Outlasts w.Speaks := by
  have quiet : ∀ {before after : Workspace}, before.Hushed after →
      w.Speaks before → w.Speaks after := fun hushed speaks => speaks.trans hushed.speaks
  constructor
  · exact fun _ _ _ => quiet (.of_same rfl rfl)
  · exact fun _ => quiet (.of_same rfl rfl)
  · exact fun _ => quiet (.of_same rfl rfl)
  · exact fun event payload speaks => speaks.trans (Workspace.speaks_emitted event payload _)

theorem keeps_of_discreet {behaviour : Behaviour} (discreet : behaviour.Discreet) (w : Workspace) :
    behaviour.Keeps w.Speaks := by
  cases behaviour with
  | linkerScript => trivial
  | host mode =>
      constructor
      · exact fun previous _ speaks => speaks.trans (discreet.enter previous _)
      · exact fun next _ speaks => speaks.trans (discreet.leave next _)

theorem speaks_activate (name : String) : Preserves (Speaks w) (activate name) := by
  rintro m ⟨discreet, speaks⟩
  have hooks : ∀ entry ∈ m.descriptors, entry.2.behaviour.Keeps w.Speaks :=
    fun entry mem => keeps_of_discreet (discreet.descriptors entry mem).behaviour w
  have switches := switches_activate (outlasts_speaks w) hooks name m ⟨speaks, rfl, rfl⟩
  refine ⟨⟨?_, ?_⟩, switches.workspace⟩
  · rw [switches.keymap]
    exact discreet.actions
  · rw [switches.descriptors]
    exact discreet.descriptors

theorem speaks_activateForPath (path : String) :
    Preserves (Speaks w) (activateForPath path) := by
  refine preserves_get_bind fun m _ => ?_
  split
  · exact (speaks_activate _).bind fun _ => preserves_pure _
  · exact (speaks_event _ _ _).bind fun _ => preserves_pure _

theorem speaks_execute (b : Binding) {a : Action Handler}
    (discreet : Workspace.Discreet a.handler) : Preserves (Speaks w) (execute b a) := by
  have runs : Preserves (Speaks w) (onWorkspace a.handler) := speaks_onWorkspace discreet
  exact Preserves.bind runs fun _ => preserves_pure _

/-- An action that keys lead to is one of the keymap, so it is discreet. -/
theorem speaks_pressLinkerScript (mode : String) (state : ModeState) (key : KeyPress) :
    Preserves (Speaks w) (pressLinkerScript mode state key) := by
  refine (speaks_setPending _ _).bind fun _ => ?_
  refine Preserves.bind_of (speaks_onKeymap (Keymap.orderly_resolve _ _))
    (fun m speaks => (Keymap.orderly_resolve _ _ m.keymap speaks.discreet.actions).wanted)
    fun r discreet => ?_
  cases r with
  | found b a consumed =>
      refine (speaks_setPending _ _).bind fun _ => ?_
      exact speaks_execute b (discreet b a consumed rfl)
  | pending consumed => exact preserves_pure _
  | miss =>
      refine (speaks_setPending _ _).bind fun _ => ?_
      split
      · exact (speaks_onWorkspace (Workspace.discreet_onBuffer _)).bind
          fun _ => preserves_pure _
      · exact preserves_pure _

theorem speaks_press (key : KeyPress) : Preserves (Speaks w) (press key) := by
  refine preserves_get_bind fun m speaks => ?_
  split
  · next mode state _ _ =>
      have behaviour := speaks.discreet.behaviour mode
      have handled : Preserves (Speaks w) (match m.behaviour mode with
          | .linkerScript => pressLinkerScript mode state key
          | .host host => onWorkspace (host.press key)) := by
        cases known : m.behaviour mode with
        | linkerScript => exact speaks_pressLinkerScript mode state key
        | host host =>
            rw [known] at behaviour
            exact speaks_onWorkspace (behaviour.press key)
      refine Preserves.bind handled fun result => ?_
      dsimp only
      split
      · exact (speaks_activate _).bind fun _ => preserves_pure _
      · exact preserves_pure _
  · exact preserves_of_still fun _ => rfl

theorem speaks_runAction (id : String) : Preserves (Speaks w) (runAction id) := by
  refine preserves_get_bind fun m speaks => ?_
  refine Preserves.bind_of (speaks_ofExcept _)
    (fun _ _ a found => speaks.discreet.actions.action found) fun a discreet => ?_
  exact speaks_onWorkspace discreet

theorem speaks_register {d : Descriptor} (discreet : d.Discreet) :
    Preserves (Speaks w) (register d) := by
  rintro m ⟨managed, speaks⟩
  cases name : OrderedMap.get? d.name m.descriptors with
  | some other =>
      rw [effect_register_of_known (by rw [name]; rfl)]
      exact ⟨managed, speaks⟩
  | none =>
      rw [effect_register_of_unknown name]
      have actions := Keymap.actions_registerBindings d.bindings (m.keymap.putActions d.actions)
      generalize effect (forIn d.bindings PUnit.unit _) (m.keymap.putActions d.actions) = ran
        at actions ⊢
      have provides : ran.2.Provides Workspace.Discreet := by
        intro entry mem
        rw [actions] at mem
        rcases Keymap.mem_actions_putActions d.actions mem with own | before
        · exact discreet.actions _ own
        · exact managed.actions entry before
      rcases ran with ⟨fault | done, k⟩
      · exact ⟨⟨provides, managed.descriptors⟩, speaks⟩
      · refine ⟨⟨provides, fun entry mem => ?_⟩, speaks⟩
        rcases OrderedMap.mem_put mem with rfl | before
        · exact discreet
        · exact managed.descriptors entry before

theorem speaks_setUp : Preserves (Speaks w) setUp := by
  refine (speaks_register LinkerScriptMode.discreet_descriptor).bind fun _ => ?_
  refine preserves_get_bind fun m _ => ?_
  split
  · exact (speaks_activate _).bind fun _ => preserves_pure _
  · refine (speaks_activateForPath _).bind fun found => ?_
    split
    · exact preserves_pure _
    · exact (speaks_activate _).bind fun _ => preserves_pure _

theorem discreet_ofBuffer (b : Buffer) (s : Settings) : (ofBuffer b s).Discreet := by
  have fresh := (discreet_ofWorkspace (.ofBuffer b s)).speaks
  have started := speaks_setUp _ fresh
  rw [ofBuffer, state_eq]
  exact started.discreet

end Manager

end LinkerScriptEditor
