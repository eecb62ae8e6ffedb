import LinkerScriptEditor.Manager
import LinkerScriptEditor.Proofs.Keymap.Installing
import LinkerScriptEditor.Proofs.Keymap.Serving
import LinkerScriptEditor.Proofs.Log.Zoom

/-!
# How a manager starts

Registering a descriptor works on the keymap alone until the descriptor is known. So what comes of
the linker script mode's actions and bindings can be computed once, whatever the buffer.
-/

namespace LinkerScriptEditor

open Traced

/-- Puts the actions and the bindings of a descriptor into a keymap. -/
def Descriptor.install (d : Descriptor) : Traced (Keymap Handler) Unit := do
  for a in d.actions do
    Keymap.registerAction a true
  for b in d.bindings do
    Keymap.registerBinding b false

namespace LinkerScriptMode

/-- The keymap with nothing but the linker script mode installed. -/
def keymap : Keymap Handler := (effect descriptor.install (.empty Manager.keymapLogger)).2

theorem effect_install :
    effect descriptor.install (.empty Manager.keymapLogger) = (.ok (), keymap) := rfl

theorem keymap_actions : keymap.actions = actions.map fun a => (a.id, a) := rfl

theorem keymap_serves : keymap.Serves name actions where
  leads := by decide +kernel
  listed := by
    intro entry mem
    rw [keymap_actions] at mem
    obtain ⟨a, found, rfl⟩ := List.mem_map.mp mem
    exact found

end LinkerScriptMode

namespace Manager

theorem keymapPart_lawful : keymapPart.Lawful := ⟨fun _ _ => rfl, fun _ _ _ => rfl, fun _ => rfl⟩

/-- A loop of registrations changes the keymap alone. -/
theorem effect_forIn_onKeymap {α : Type} (items : List α) (f : α → Traced (Keymap Handler) PUnit)
    (m : Manager) :
    effect (forIn items PUnit.unit fun a _ => do
        onKeymap (f a)
        Pure.pure (ForInStep.yield PUnit.unit)) m =
      let loop := effect (forIn items PUnit.unit fun a _ => do
        f a
        Pure.pure (ForInStep.yield PUnit.unit)) m.keymap
      (loop.1, { m with keymap := loop.2 }) :=
  effect_forIn_zoom keymapPart_lawful items f m

/-- A descriptor of a new name is known once its bindings are in. Otherwise only the keymap has
changed. -/
theorem effect_register_of_unknown {d : Descriptor} {m : Manager}
    (unknown : OrderedMap.get? d.name m.descriptors = none) :
    effect (register d) m =
      match effect (forIn d.bindings PUnit.unit fun b _ => do
        Keymap.registerBinding b false
        Pure.pure (ForInStep.yield PUnit.unit)) (m.keymap.putActions d.actions) with
      | (.ok _, k) =>
        (.ok (), { m with keymap := k, descriptors := OrderedMap.put d.name d m.descriptors })
      | (.error fault, k) => (.error fault, { m with keymap := k }) := by
  rw [register, effect_bind_of_ok (effect_get m), unknown, if_neg (by decide), effect_within,
    effect_bind, effect_forIn_onKeymap, Keymap.effect_registerActions]
  dsimp only
  rw [effect_bind, effect_forIn_onKeymap]
  dsimp only
  rcases effect (forIn d.bindings PUnit.unit fun b _ => do
    Keymap.registerBinding b false
    Pure.pure (ForInStep.yield PUnit.unit)) (m.keymap.putActions d.actions) with ⟨_ | _, k⟩
  · rfl
  · rfl

/-- A descriptor of a new name becomes known once everything of it is installed. -/
theorem effect_register {d : Descriptor} {m : Manager} {k : Keymap Handler}
    (unknown : OrderedMap.get? d.name m.descriptors = none)
    (installed : effect d.install m.keymap = (.ok (), k)) :
    effect (register d) m =
      (.ok (), { m with keymap := k, descriptors := OrderedMap.put d.name d m.descriptors }) := by
  rw [Descriptor.install, effect_bind, Keymap.effect_registerActions] at installed
  dsimp only at installed
  rw [effect_bind] at installed
  rw [effect_register_of_unknown unknown]
  rcases bindings : effect (forIn d.bindings PUnit.unit fun b _ => do
    Keymap.registerBinding b false
    Pure.pure (ForInStep.yield PUnit.unit)) (m.keymap.putActions d.actions) with ⟨_ | _, last⟩
  · rw [bindings] at installed
    cases installed
  · rw [bindings] at installed
    cases installed
    rfl

/-- The manager of a buffer that knows the linker script mode, before any mode is active. -/
def idle (b : Buffer) (s : Settings) : Manager :=
  { ofWorkspace (.ofBuffer b s) with
    keymap := LinkerScriptMode.keymap
    descriptors := [(LinkerScriptMode.name, LinkerScriptMode.descriptor)] }

/-- The linker script mode in use, with some keys pending. -/
def inMode (pending : List String) (w : Workspace) : Workspace :=
  { w with
    modes := [(LinkerScriptMode.name, ⟨LinkerScriptMode.name, pending⟩)]
    active := some LinkerScriptMode.name }

/-- The manager of a buffer with the linker script mode active. -/
def started (b : Buffer) (s : Settings) : Manager :=
  let w := (idle b s).workspace.putService Service.trackerName (.tracker LinkerScriptMode.name)
  { idle b s with workspace := inMode [] w }

variable (b : Buffer) (s : Settings)

theorem effect_register_descriptor :
    effect (register LinkerScriptMode.descriptor) (ofWorkspace (.ofBuffer b s)) =
      (.ok (), idle b s) := by
  apply effect_register
  · rfl
  · exact LinkerScriptMode.effect_install

/-- With nothing active the mode is made, entered and announced to nobody. -/
theorem effect_activate_idle :
    effect (activate LinkerScriptMode.name) (idle b s) =
      (.ok LinkerScriptMode.name, started b s) := by
  have known : (idle b s).descriptor LinkerScriptMode.name = .ok LinkerScriptMode.descriptor := rfl
  have unnamed : (idle b s).workspace.activeName? = none := rfl
  have inactive : (idle b s).workspace.active = none := rfl
  let made : Manager := { idle b s with
    workspace := ((idle b s).workspace.putMode LinkerScriptMode.name
      ⟨LinkerScriptMode.name, []⟩) }
  have instantiated : effect (instantiate LinkerScriptMode.descriptor) (idle b s) =
      (.ok ⟨LinkerScriptMode.name, []⟩, made) := rfl
  let active : Manager := { idle b s with workspace := inMode [] (idle b s).workspace }
  have changed : effect (changeWorkspace ({ · with active := some LinkerScriptMode.name })) made =
      (.ok (), active) := rfl
  have entered : effect (enter LinkerScriptMode.name none) active = (.ok (), started b s) := rfl
  have announced : effect (onWorkspace (Workspace.emit "mode.enter" (.str LinkerScriptMode.name)))
      (started b s) = (.ok (), started b s) := rfl
  rw [activate, effect_bind_of_ok (effect_get _), known,
    effect_bind_of_ok (effect_ofExcept _ _), effect_bind_of_ok (effect_get _)]
  dsimp only
  rw [unnamed, inactive, if_neg (by decide)]
  dsimp only
  rw [effect_bind_of_ok instantiated, effect_bind_of_ok changed, effect_bind_of_ok entered,
    effect_bind_of_ok announced, effect_bind_of_ok (effect_event _ _ _ _), effect_pure]

theorem effect_activateForPath_idle (path : String) :
    let ran := effect (activateForPath path) (idle b s)
    ran = (.ok none, idle b s) ∨ ran = (.ok (some LinkerScriptMode.name), started b s) := by
  have only : (idle b s).descriptorForPath? path =
      [LinkerScriptMode.descriptor].find? (·.matchesPath path) := rfl
  rw [activateForPath, effect_bind_of_ok (effect_get _), only, List.find?_singleton]
  by_cases claimed : LinkerScriptMode.descriptor.matchesPath path = true
  · right
    rw [if_pos claimed]
    change effect (some <$> activate LinkerScriptMode.name) (idle b s) = _
    rw [effect_map, effect_activate_idle]
    rfl
  · left
    rw [if_neg claimed]
    dsimp only
    rw [effect_bind_of_ok (effect_event _ _ _ _), effect_pure]

/-- Whether the mode claims the path or not, it is the one that is active. -/
theorem ofBuffer_eq : ofBuffer b s = started b s := by
  have path : (idle b s).workspace.buffer.path = b.path := rfl
  rw [ofBuffer, state_eq, setUp, effect_bind_of_ok (effect_register_descriptor b s),
    effect_bind_of_ok (effect_get _), path]
  cases b.path with
  | none => rw [effect_bind_of_ok (effect_activate_idle b s), effect_pure]
  | some path =>
      rcases effect_activateForPath_idle b s path with unclaimed | claimed
      · rw [effect_bind_of_ok unclaimed]
        dsimp only
        rw [effect_bind_of_ok (effect_activate_idle b s), effect_pure]
      · rw [effect_bind_of_ok claimed]
        dsimp only
        rw [effect_pure]

end Manager

end LinkerScriptEditor
