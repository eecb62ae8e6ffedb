import LinkerScriptEditor.Proofs.Buffer.Sound
import LinkerScriptEditor.Workspace

/-!
# What commands leave alone

A command changes the buffer of a workspace and adds notices. The settings, the modes and the
selection stay what they were, so a workspace that is ready for a command is ready for the next one
as long as its buffer stays sound.
-/

namespace LinkerScriptEditor.Workspace

open Traced

/-- The settings, the modes and the selection are the same. -/
structure Frame (w after : Workspace) : Prop where
  settings : after.settings = w.settings
  modes : after.modes = w.modes
  active : after.active = w.active
  selection : after.buffer.selection = w.buffer.selection

/-- The buffer is sound, nothing is selected, and there is a unit to indent by. -/
structure Ready (w : Workspace) : Prop where
  sound : w.buffer.Sound
  unselected : w.buffer.selection = none
  unit_pos : 0 < w.settings.unit

variable {w middle after : Workspace}

theorem Frame.refl (w : Workspace) : w.Frame w := ⟨rfl, rfl, rfl, rfl⟩

theorem Frame.trans (first : w.Frame middle) (second : middle.Frame after) : w.Frame after where
  settings := second.settings.trans first.settings
  modes := second.modes.trans first.modes
  active := second.active.trans first.active
  selection := second.selection.trans first.selection

theorem Ready.frame (ready : w.Ready) (frame : w.Frame after) (sound : after.buffer.Sound) :
    after.Ready where
  sound := sound
  unselected := frame.selection.trans ready.unselected
  unit_pos := by
    rw [frame.settings]
    exact ready.unit_pos

theorem frame_buffer (w : Workspace) {b : Buffer} (selection : b.selection = w.buffer.selection) :
    w.Frame { w with buffer := b } :=
  ⟨rfl, rfl, rfl, selection⟩

theorem effect_onBuffer {α : Type} {x : Traced Buffer α} {outcome : Except Fault α} {b : Buffer}
    (run : effect x w.buffer = (outcome, b)) :
    effect (onBuffer x) w = (outcome, { w with buffer := b }) := by
  rw [onBuffer, effect_zoom]
  change ((effect x w.buffer).1, { w with buffer := (effect x w.buffer).2 }) = _
  rw [run]

@[simp] theorem effect_readUnit (w : Workspace) :
    effect (onSettings Settings.readUnit) w = (.ok w.settings.unit, w) := rfl

@[simp] theorem effect_readStyle (w : Workspace) :
    effect (onSettings Settings.readStyle) w = (.ok w.settings.style, w) := rfl

@[simp] theorem effect_emit (event : String) (payload : Datum) (w : Workspace) :
    effect (emit event payload) w = (.ok (), w.emitted event payload) := rfl

theorem tell_eq (payload : Datum) (listener : Listener) (w : Workspace) :
    ∃ notices, w.tell payload listener = { w with notices } := by
  cases listener with
  | observer name => exact ⟨_, rfl⟩
  | view id name => exact ⟨_, rfl⟩

/-- Whoever listens, an emission adds notices and changes nothing else. -/
theorem emitted_eq (event : String) (payload : Datum) (w : Workspace) :
    ∃ notices, w.emitted event payload = { w with notices } := by
  have fold : ∀ (listeners : List Listener) (w : Workspace), ∃ notices,
      listeners.foldl (fun w listener => w.tell payload listener) w = { w with notices } := by
    intro listeners
    induction listeners with
    | nil => exact fun w => ⟨w.notices, rfl⟩
    | cons listener rest ih =>
        intro w
        obtain ⟨told, first⟩ := tell_eq payload listener w
        obtain ⟨notices, others⟩ := ih (w.tell payload listener)
        refine ⟨notices, ?_⟩
        rw [List.foldl_cons, others, first]
  exact fold _ w

theorem buffer_emitted (event : String) (payload : Datum) (w : Workspace) :
    (w.emitted event payload).buffer = w.buffer := by
  obtain ⟨notices, same⟩ := emitted_eq event payload w
  rw [same]

theorem frame_emitted (event : String) (payload : Datum) (w : Workspace) :
    w.Frame (w.emitted event payload) := by
  obtain ⟨notices, same⟩ := emitted_eq event payload w
  rw [same]
  exact ⟨rfl, rfl, rfl, rfl⟩

end LinkerScriptEditor.Workspace
