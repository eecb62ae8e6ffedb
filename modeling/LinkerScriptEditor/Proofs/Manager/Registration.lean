import LinkerScriptEditor.Proofs.Manager.Start

/-!
# Registering a mode

A registration puts in all the actions of a descriptor and then its bindings one by one. Nothing is
taken back when a binding is refused: the descriptor stays unknown, but its actions and the bindings
in front of the refused one are there, and they are in the way when the descriptor is registered
again.
-/

namespace LinkerScriptEditor.Manager

open Traced

variable {m : Manager} {d : Descriptor}

/-- The name is free, and once the actions are in there is room for the bindings. -/
structure Admits (m : Manager) (d : Descriptor) : Prop where
  unknown : OrderedMap.get? d.name m.descriptors = none
  accepts : (m.keymap.putActions d.actions).Accepts d.bindings

theorem effect_register_of_known
    (known : (OrderedMap.get? d.name m.descriptors).isSome = true) :
    effect (register d) m = (.error (.modeTaken d.name), m) := by
  rw [register, effect_bind_of_ok (effect_get m), if_pos known]
  rfl

/-- A registration goes well just if the manager admits the descriptor. -/
theorem effect_register_ok_iff (coherent : m.keymap.Coherent) :
    (effect (register d) m).1 = .ok () ↔ m.Admits d := by
  cases name : OrderedMap.get? d.name m.descriptors with
  | some other =>
      rw [effect_register_of_known (by rw [name]; rfl)]
      refine iff_of_false nofun fun admits => ?_
      cases name.symm.trans admits.unknown
  | none =>
      have ready := coherent.putActions d.actions
      have installs := ready.installs d.bindings
      have accepted := installs.ok_iff ready
      rw [effect_register_of_unknown name]
      generalize effect (forIn d.bindings PUnit.unit _) (m.keymap.putActions d.actions) = ran
        at accepted ⊢
      have admits : m.Admits d ↔ (m.keymap.putActions d.actions).Accepts d.bindings :=
        ⟨Admits.accepts, fun accepts => ⟨name, accepts⟩⟩
      rw [admits, ← accepted]
      rcases ran with ⟨_ | _, k⟩
      · exact iff_of_false nofun nofun
      · exact iff_of_true rfl rfl

/-- What a registration leaves behind that ends at a refused binding: all actions, and the bindings
in front of that one. -/
structure Halfway (m : Manager) (d : Descriptor) (before : List Binding) (after : Manager) :
    Prop where
  workspace : after.workspace = m.workspace
  descriptors : after.descriptors = m.descriptors
  actions : after.keymap.actions =
    OrderedMap.putAll m.keymap.actions (d.actions.map fun a => (a.id, a))
  bindings : after.keymap.bindingsOf none = m.keymap.bindingsOf none ++ before
  tables : ∀ mode tokens id, (tokens, id) ∈ after.keymap.table mode ↔
    (tokens, id) ∈ m.keymap.table mode ∨
      ∃ b ∈ before, b.mode = mode ∧ b.sequence.tokens = tokens ∧ b.id = id

theorem halfway_insertAll (coherent : m.keymap.Coherent) {before : List Binding}
    (accepted : (m.keymap.putActions d.actions).Accepts before) :
    Halfway m d before
      { m with keymap := (m.keymap.putActions d.actions).insertAll before } := by
  obtain ⟨stays, listed⟩ := (coherent.putActions d.actions).insertAll accepted
  rw [Keymap.bindingsOf_putActions] at listed
  have actions : ((m.keymap.putActions d.actions).insertAll before).actions = _ :=
    (Keymap.actions_insertAll _ _).trans (Keymap.actions_putActions _ _)
  refine ⟨rfl, rfl, actions, listed, ?_⟩
  intro mode tokens id
  dsimp only
  rw [stays.mem_table_iff, coherent.mem_table_iff]
  simp only [stays.binding_eq_ok_iff, coherent.binding_eq_ok_iff, listed, List.mem_append]
  constructor
  · rintro ⟨b, ⟨old | new, name⟩, place⟩
    · exact .inl ⟨b, ⟨old, name⟩, place⟩
    · exact .inr ⟨b, new, place.1, place.2, name⟩
  · rintro (⟨b, ⟨old, name⟩, place⟩ | ⟨b, new, mode, tokens, name⟩)
    · exact ⟨b, ⟨.inl old, name⟩, place⟩
    · exact ⟨b, ⟨.inr new, name⟩, mode, tokens⟩

/-- Where a binding of the descriptor is already there, the descriptor is not admitted. -/
theorem Halfway.not_admits {before : List Binding} {after : Manager}
    (halfway : Halfway m d before after) (among : ∀ b ∈ before, b ∈ d.bindings)
    (nonempty : before ≠ []) : ¬after.Admits d := by
  intro admits
  obtain ⟨b, mem⟩ := List.exists_mem_of_ne_nil before nonempty
  apply admits.accepts.free b (among b mem) b
  · rw [Keymap.bindingsOf_putActions, halfway.bindings]
    exact List.mem_append_right _ mem
  · exact .inl rfl

end LinkerScriptEditor.Manager
