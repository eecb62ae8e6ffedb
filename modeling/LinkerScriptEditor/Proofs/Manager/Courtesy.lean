import LinkerScriptEditor.Proofs.Command.Mild
import LinkerScriptEditor.Proofs.Manager.Handling

/-!
# Courteous modes

A courteous descriptor brings a mode of its own name, and neither the mode nor its actions take part
in the switching of modes. With such descriptors a manager stays tidy: the comment tracker is there
just while the linker script mode is, and no keys are pending in a mode that is not active. Leaving
a mode and entering another one are shown to go well, and to keep a manager tidy.
-/

namespace LinkerScriptEditor

open Traced Workspace

/-- A handler takes no part in the switching of modes, whether it is refused or not. -/
def Polite (handler : Handler) : Prop := ∀ w : Workspace, w.Quiet (effect handler w).2

/-- A host's mode is entered and left without fault, and takes no part in the switching itself. -/
structure HostMode.Courteous (host : HostMode) : Prop where
  enter : ∀ (previous : Option String) (w : Workspace), ∃ after,
    effect (host.enter previous) w = (.ok (), after) ∧ w.Quiet after
  leave : ∀ (next : Option String) (w : Workspace), ∃ after,
    effect (host.leave next) w = (.ok (), after) ∧ w.Quiet after
  press : ∀ (key : KeyPress) (w : Workspace), w.Quiet (effect (host.press key) w).2

/-- The mode of a behaviour has a given name, and is courteous if it is the host's. -/
def Behaviour.Suits (name : String) : Behaviour → Prop
  | .linkerScript => name = LinkerScriptMode.name
  | .host mode => mode.name = name ∧ mode.Courteous

structure Descriptor.Courteous (d : Descriptor) : Prop where
  mode : d.behaviour.Suits d.name
  actions : ∀ a ∈ d.actions, Polite a.handler

namespace LinkerScriptMode

theorem polite_handler {a : Action Handler} (mem : a ∈ actions) : Polite a.handler :=
  fun _ => (Command.mild_handler mem).worked.quiet

theorem courteous_descriptor : descriptor.Courteous := ⟨rfl, fun _ mem => polite_handler mem⟩

end LinkerScriptMode

namespace Manager

/-- The given mode is a linker script mode. -/
def Opened (m : Manager) (current : Option String) : Prop :=
  current = some LinkerScriptMode.name ∧ m.behaviour LinkerScriptMode.name = .linkerScript

/-- Modes are named like their descriptors. The comment tracker is there just while the linker
script mode is open, and only then there are pending keys. -/
structure Tidy (m : Manager) (current : Option String) : Prop where
  keymap : (m.workspace.service? Service.keymapName).any Service.isKeymap = true
  tracker : m.workspace.service? Service.trackerName = some (.tracker LinkerScriptMode.name) ↔
    m.Opened current
  distinct : (OrderedMap.keys m.workspace.modes).Nodup
  modes : ∀ name state, OrderedMap.get? name m.workspace.modes = some state → state.name = name
  pending : ∀ name state, OrderedMap.get? name m.workspace.modes = some state →
    state.pending = [] ∨ name = LinkerScriptMode.name ∧ m.Opened current
  current : ∀ name, current = some name → ∃ d state,
    OrderedMap.get? name m.descriptors = some d ∧
      OrderedMap.get? name m.workspace.modes = some state
  descriptors : ∀ name d, OrderedMap.get? name m.descriptors = some d →
    d.name = name ∧ d.Courteous
  actions : ∀ entry ∈ m.keymap.actions, Polite entry.2.handler

/-- Modes that have been used stay, and who watches for switches is told of none. -/
structure Unannounced (w after : Workspace) : Prop where
  used : ∀ name, (OrderedMap.get? name w.modes).isSome → (OrderedMap.get? name after.modes).isSome
  told : ∀ current, w.Told current → after.Told current

variable {m : Manager} {w : Workspace} {current : Option String} {name : String} {d : Descriptor}

theorem behaviour_eq (known : OrderedMap.get? name m.descriptors = some d) :
    m.behaviour name = d.behaviour := by
  rw [behaviour, known]
  rfl

theorem descriptor_eq (known : OrderedMap.get? name m.descriptors = some d) :
    m.descriptor name = .ok d := by
  rw [descriptor, known]

theorem Unannounced.trans {w middle after : Workspace} (first : Unannounced w middle)
    (second : Unannounced middle after) : Unannounced w after where
  used := fun name used => second.used name (first.used name used)
  told := fun current told => second.told current (first.told current told)

theorem Unannounced.of_quiet {w after : Workspace} (quiet : w.Quiet after) :
    Unannounced w after where
  used := by
    rw [quiet.modes]
    exact fun _ used => used
  told := fun _ told => told.quiet quiet

/-- Nothing but the modes and the services that they share counts. -/
theorem Tidy.congr (tidy : m.Tidy current)
    (services : ∀ name ∈ [Service.keymapName, Service.trackerName],
      w.service? name = m.workspace.service? name)
    (modes : w.modes = m.workspace.modes) : Tidy { m with workspace := w } current where
  keymap := by
    rw [services _ (by decide)]
    exact tidy.keymap
  tracker := by
    rw [services _ (by decide)]
    exact tidy.tracker
  distinct := by
    rw [modes]
    exact tidy.distinct
  modes := by
    rw [modes]
    exact tidy.modes
  pending := by
    rw [modes]
    exact tidy.pending
  current := by
    rw [modes]
    exact tidy.current
  descriptors := tidy.descriptors
  actions := tidy.actions

theorem Tidy.quiet (tidy : m.Tidy current) (quiet : m.workspace.Quiet w) :
    Tidy { m with workspace := w } current :=
  tidy.congr quiet.services quiet.modes

theorem Tidy.emitted (tidy : m.Tidy current) (event : String) (payload : Datum) :
    Tidy { m with workspace := m.workspace.emitted event payload } current := by
  obtain ⟨notices, same⟩ := emitted_eq event payload m.workspace
  rw [same]
  exact tidy.congr (fun _ _ => rfl) rfl

theorem effect_setPending {mode : String} {state : ModeState}
    (used : OrderedMap.get? mode m.workspace.modes = some state) (keys : List String) :
    effect (setPending mode keys) m =
      (.ok (),
        { m with workspace := m.workspace.putMode mode { state with pending := keys } }) := by
  change (Except.ok (), { m with workspace := _ }) = _
  dsimp only
  rw [used]

theorem get?_putMode (name other : String) (state : ModeState) (w : Workspace) :
    OrderedMap.get? other (w.putMode name state).modes =
      if name = other then some state else OrderedMap.get? other w.modes :=
  OrderedMap.get?_put name other state w.modes

/-- A mode may get another state that fits it. -/
theorem Tidy.putMode (tidy : m.Tidy current) (state : ModeState) (named : state.name = name)
    (fits : state.pending = [] ∨ name = LinkerScriptMode.name ∧ m.Opened current) :
    Tidy { m with workspace := m.workspace.putMode name state } current ∧
      Unannounced m.workspace (m.workspace.putMode name state) := by
  refine ⟨⟨tidy.keymap, tidy.tracker, OrderedMap.nodup_keys_put tidy.distinct, ?_, ?_, ?_,
    tidy.descriptors, tidy.actions⟩, ⟨?_, fun _ told => told.congr rfl rfl⟩⟩
  · intro other later put
    rw [get?_putMode] at put
    split at put
    · next same =>
        cases put
        exact named.trans same
    · exact tidy.modes other later put
  · intro other later put
    rw [get?_putMode] at put
    split at put
    · next same =>
        cases put
        exact same ▸ fits
    · exact tidy.pending other later put
  · intro other same
    obtain ⟨d, before, known, used⟩ := tidy.current other same
    refine ⟨d, if name = other then state else before, known, ?_⟩
    rw [get?_putMode, used]
    split <;> rfl
  · intro other used
    rw [get?_putMode]
    split
    · rfl
    · exact used

/-- Once no keys are pending the linker script mode is closed by taking its tracker away. -/
theorem Tidy.close (tidy : m.Tidy (some LinkerScriptMode.name))
    (behaviour : m.behaviour LinkerScriptMode.name = .linkerScript)
    (idle : ∀ state, OrderedMap.get? LinkerScriptMode.name m.workspace.modes = some state →
      state.pending = []) :
    Tidy { m with workspace := Manager.withdrawTracker LinkerScriptMode.name m.workspace }
      none := by
  have owned := tidy.tracker.mpr ⟨rfl, behaviour⟩
  rw [Manager.withdrawTracker, owned, if_pos (by rfl)]
  refine ⟨?_, ?_, tidy.distinct, tidy.modes, ?_, nofun, tidy.descriptors, tidy.actions⟩
  · dsimp only [service?, dropService]
    rw [OrderedMap.get?_erase, if_neg (by decide)]
    exact tidy.keymap
  · dsimp only [service?, dropService]
    rw [OrderedMap.get?_erase, if_pos rfl]
    exact iff_of_false nofun nofun
  · intro name state found
    rcases tidy.pending name state found with none | ⟨rfl, -⟩
    · exact .inl none
    · exact .inl (idle state found)

theorem unannounced_withdrawTracker (mode : String) (w : Workspace) :
    Unannounced w (Manager.withdrawTracker mode w) := by
  rw [Manager.withdrawTracker]
  split
  · exact ⟨fun _ used => used, fun _ told => told.congr rfl rfl⟩
  · exact .of_quiet (.refl w)

theorem not_opened {host : HostMode} (behaviour : m.behaviour name = .host host) :
    ¬m.Opened (some name) := by
  rintro ⟨same, linkerScript⟩
  cases same
  rw [linkerScript] at behaviour
  cases behaviour

/-- A mode of the host's leaves nothing behind. -/
theorem Tidy.closeHost {host : HostMode} (tidy : m.Tidy (some name))
    (behaviour : m.behaviour name = .host host) : m.Tidy none := by
  have opened := not_opened behaviour
  refine { tidy with tracker := ?_, pending := ?_, current := nofun }
  · rw [tidy.tracker]
    exact iff_of_false opened nofun
  · intro name state found
    exact .inl ((tidy.pending name state found).resolve_right fun keys => opened keys.2)

/-- Leaving the active mode empties its pending keys and takes its tracker away. -/
theorem Tidy.leave {old : String} (tidy : m.Tidy (some old)) (next : Option String) :
    ∃ w, effect (leave old next) m = (.ok (), { m with workspace := w }) ∧
      Tidy { m with workspace := w } none ∧ Unannounced m.workspace w := by
  obtain ⟨d, state, known, used⟩ := tidy.current old rfl
  obtain ⟨named, courteous⟩ := tidy.descriptors old d known
  have suits := courteous.mode
  have behaves := behaviour_eq known
  rw [Manager.leave, effect_bind_of_ok (effect_get m), behaves]
  cases behaviour : d.behaviour with
  | linkerScript =>
      rw [behaviour] at suits behaves
      obtain rfl : old = LinkerScriptMode.name := Eq.trans named.symm suits
      obtain ⟨cleared, before⟩ :=
        tidy.putMode { state with pending := [] } (tidy.modes _ state used) (.inl rfl)
      have closes := cleared.close behaves fun other put => by
        rw [get?_putMode, if_pos rfl] at put
        cases put
        rfl
      have quiet := quiet_emitted "ld-script.exit" (by decide) (.ofText? next)
        (Manager.withdrawTracker LinkerScriptMode.name (m.workspace.putMode LinkerScriptMode.name
          { state with pending := [] }))
      have unannounced := before.trans (unannounced_withdrawTracker LinkerScriptMode.name _)
      dsimp only
      rw [effect_bind_of_ok (effect_setPending used []),
        effect_bind_of_ok (effect_changeWorkspace _ _), effect_onWorkspace (effect_emit _ _ _)]
      exact ⟨_, rfl, closes.quiet quiet, unannounced.trans (.of_quiet quiet)⟩
  | host host =>
      rw [behaviour] at suits behaves
      obtain ⟨after, left, quiet⟩ := suits.2.leave next m.workspace
      dsimp only
      rw [effect_onWorkspace left]
      exact ⟨after, rfl, (tidy.closeHost behaves).quiet quiet, .of_quiet quiet⟩

/-- A mode that has been used is not made again. -/
theorem effect_instantiate_of_used {state : ModeState}
    (used : OrderedMap.get? d.name m.workspace.modes = some state) :
    effect (instantiate d) m = (.ok state, m) := by
  rw [instantiate, effect_bind_of_ok (effect_get m)]
  dsimp only
  rw [used]
  rfl

theorem effect_instantiate_of_new {state : ModeState}
    (new : OrderedMap.get? d.name m.workspace.modes = none)
    (started : start m.workspace d.behaviour = .ok state) :
    effect (instantiate d) m =
      (.ok state, { m with workspace := m.workspace.putMode d.name state }) := by
  rw [instantiate, effect_bind_of_ok (effect_get m)]
  dsimp only
  rw [new, started]
  rfl

/-- A courteous mode starts under the name of its descriptor. -/
theorem Tidy.start (tidy : m.Tidy current) (courteous : d.Courteous) :
    Manager.start m.workspace d.behaviour = .ok ⟨d.name, []⟩ := by
  have suits := courteous.mode
  cases behaviour : d.behaviour with
  | linkerScript =>
      rw [behaviour] at suits
      have named : d.name = LinkerScriptMode.name := suits
      rw [Manager.start, if_pos tidy.keymap, named]
  | host host =>
      rw [behaviour] at suits
      rw [Manager.start, suits.1]

/-- A mode is there once it has been made, and it is named like its descriptor. -/
theorem Tidy.instantiate (tidy : m.Tidy current)
    (known : OrderedMap.get? name m.descriptors = some d) :
    ∃ state w, effect (instantiate d) m = (.ok state, { m with workspace := w }) ∧
      state.name = name ∧ OrderedMap.get? name w.modes = some state ∧
      Tidy { m with workspace := w } current ∧ Unannounced m.workspace w := by
  obtain ⟨rfl, courteous⟩ := tidy.descriptors name d known
  cases used : OrderedMap.get? d.name m.workspace.modes with
  | some state =>
      exact ⟨state, m.workspace, effect_instantiate_of_used used, tidy.modes _ state used, used,
        tidy, .of_quiet (.refl m.workspace)⟩
  | none =>
      obtain ⟨made, unannounced⟩ := tidy.putMode ⟨d.name, []⟩ rfl (.inl rfl)
      exact ⟨_, _, effect_instantiate_of_new used (tidy.start courteous), rfl,
        (get?_putMode d.name d.name _ _).trans (if_pos rfl), made, unannounced⟩

/-- The linker script mode is opened by putting its tracker there. -/
theorem Tidy.offer (tidy : m.Tidy none)
    (behaviour : m.behaviour LinkerScriptMode.name = .linkerScript)
    (known : ∃ d state, OrderedMap.get? LinkerScriptMode.name m.descriptors = some d ∧
      OrderedMap.get? LinkerScriptMode.name m.workspace.modes = some state) :
    let tracker := Service.tracker LinkerScriptMode.name
    Tidy { m with workspace := m.workspace.putService Service.trackerName tracker }
      (some LinkerScriptMode.name) := by
  refine ⟨?_, ?_, tidy.distinct, tidy.modes, ?_, ?_, tidy.descriptors, tidy.actions⟩
  · dsimp only [service?, putService]
    rw [OrderedMap.get?_put, if_neg (by decide)]
    exact tidy.keymap
  · dsimp only [service?, putService]
    rw [OrderedMap.get?_put, if_pos rfl]
    exact iff_of_true rfl ⟨rfl, behaviour⟩
  · intro name state found
    exact .inl ((tidy.pending name state found).resolve_right nofun)
  · rintro name ⟨⟩
    exact known

theorem Tidy.openHost {host : HostMode} (tidy : m.Tidy none)
    (behaviour : m.behaviour name = .host host)
    (known : ∃ d state, OrderedMap.get? name m.descriptors = some d ∧
      OrderedMap.get? name m.workspace.modes = some state) : m.Tidy (some name) := by
  refine { tidy with tracker := ?_, pending := ?_, current := ?_ }
  · rw [tidy.tracker]
    exact iff_of_false nofun (not_opened behaviour)
  · intro other state found
    exact .inl ((tidy.pending other state found).resolve_right nofun)
  · rintro _ ⟨⟩
    exact known

/-- Entering a mode puts its tracker there. -/
theorem Tidy.enter (tidy : m.Tidy none)
    (known : OrderedMap.get? name m.descriptors = some d) {state : ModeState}
    (used : OrderedMap.get? name m.workspace.modes = some state) (previous : Option String) :
    ∃ w, effect (enter name previous) m = (.ok (), { m with workspace := w }) ∧
      w.active = m.workspace.active ∧ Tidy { m with workspace := w } (some name) ∧
      Unannounced m.workspace w := by
  obtain ⟨named, courteous⟩ := tidy.descriptors name d known
  have suits := courteous.mode
  have behaves := behaviour_eq known
  rw [Manager.enter, effect_bind_of_ok (effect_get m), behaves]
  cases behaviour : d.behaviour with
  | linkerScript =>
      rw [behaviour] at suits behaves
      obtain rfl : name = LinkerScriptMode.name := Eq.trans named.symm suits
      have opens := tidy.offer behaves ⟨d, state, known, used⟩
      have quiet := quiet_emitted "ld-script.enter" (by decide) (.ofText? previous)
        (m.workspace.putService Service.trackerName (.tracker LinkerScriptMode.name))
      have offered : Unannounced m.workspace
          (m.workspace.putService Service.trackerName (.tracker LinkerScriptMode.name)) :=
        ⟨fun _ used => used, fun _ told => told.congr rfl rfl⟩
      dsimp only
      rw [effect_bind_of_ok (effect_changeWorkspace _ _), effect_onWorkspace (effect_emit _ _ _)]
      exact ⟨_, rfl, quiet.active, opens.quiet quiet, offered.trans (.of_quiet quiet)⟩
  | host host =>
      rw [behaviour] at suits behaves
      obtain ⟨after, entered, quiet⟩ := suits.2.enter previous m.workspace
      dsimp only
      rw [effect_onWorkspace entered]
      exact ⟨after, rfl, quiet.active,
        (tidy.openHost behaves ⟨d, state, known, used⟩).quiet quiet, .of_quiet quiet⟩

end Manager

end LinkerScriptEditor
