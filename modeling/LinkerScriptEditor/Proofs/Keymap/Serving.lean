import LinkerScriptEditor.Keymap
import LinkerScriptEditor.Proofs.Log.Effect
import LinkerScriptEditor.Proofs.OrderedMap

/-!
# Keymaps that serve a mode

Resolving keys changes no keymap, and finds just the action that the keys stand for. A keymap serves
a mode if every sequence of the mode leads to an action. Then keys are resolved without a fault.
-/

namespace LinkerScriptEditor

namespace Keymap

open Traced

variable {η : Type} {k : Keymap η} {mode : String} {actions : List (Action η)}

/-- The action of a binding. -/
def lead? (k : Keymap η) (id : String) : Option (Action η) :=
  (OrderedMap.get? id k.bindings).bind fun b => OrderedMap.get? b.action k.actions

/-- The action that a list of keys stands for. -/
def bound? (k : Keymap η) (mode : String) (tokens : List String) : Option (Action η) :=
  (OrderedMap.get? (tokens.map Token.normalize) (k.table mode)).bind k.lead?

theorem mem_of_bound? {tokens : List String} {a : Action η}
    (bound : k.bound? mode tokens = some a) : ∃ id, (id, a) ∈ k.actions := by
  obtain ⟨id, -, lead⟩ := Option.bind_eq_some_iff.mp bound
  obtain ⟨b, -, action⟩ := Option.bind_eq_some_iff.mp lead
  exact ⟨b.action, OrderedMap.mem_of_get? action⟩

theorem mem_of_action {id : String} {a : Action η} (found : k.action id = .ok a) :
    (id, a) ∈ k.actions := by
  rw [Keymap.action] at found
  split at found
  · next stored =>
      cases found
      exact OrderedMap.mem_of_get? stored
  · cases found

/-- Whatever comes of it, the keymap stays, and an action is found just if the keys stand for it. -/
theorem effect_resolve (mode : String) (tokens : List String) (k : Keymap η) :
    ∃ outcome, effect (resolve mode tokens) k = (outcome, k) ∧
      ∀ a, k.bound? mode tokens = some a ↔ ∃ b used, outcome = .ok (.found b a used) := by
  rw [resolve, effect_bind_of_ok (effect_get k), bound?]
  dsimp only
  rw [effect_span]
  cases OrderedMap.get? (tokens.map Token.normalize) (k.table mode) with
  | none =>
      dsimp only
      split
      · exact ⟨_, rfl, fun a => iff_of_false (Option.some_ne_none a).symm (by rintro ⟨_, _, ⟨⟩⟩)⟩
      · exact ⟨_, rfl, fun a => iff_of_false (Option.some_ne_none a).symm (by rintro ⟨_, _, ⟨⟩⟩)⟩
  | some id =>
      rw [Option.bind_some, lead?]
      cases stored : OrderedMap.get? id k.bindings with
      | none =>
          have binding : k.binding id = .error (.unknownBinding id) := by
            rw [Keymap.binding, stored]
          simp only [binding, effect_bind, effect_ofExcept]
          exact ⟨_, rfl, fun a => iff_of_false (Option.some_ne_none a).symm (by rintro ⟨_, _, ⟨⟩⟩)⟩
      | some b =>
          have binding : k.binding id = .ok b := by rw [Keymap.binding, stored]
          rw [Option.bind_some]
          cases known : OrderedMap.get? b.action k.actions with
          | none =>
              have action : k.action b.action = .error (.unknownAction b.action) := by
                rw [Keymap.action, known]
              simp only [binding, action, effect_bind, effect_ofExcept, effect_annotate]
              refine ⟨_, rfl, fun a => iff_of_false (Option.some_ne_none a).symm ?_⟩
              rintro ⟨_, _, ⟨⟩⟩
          | some a =>
              have action : k.action b.action = .ok a := by rw [Keymap.action, known]
              simp only [binding, action, effect_bind, effect_ofExcept, effect_annotate,
                effect_pure]
              refine ⟨_, rfl, fun other => ⟨?_, ?_⟩⟩
              · rintro ⟨⟩
                exact ⟨b, _, rfl⟩
              · rintro ⟨_, _, ⟨⟩⟩
                rfl

/-- Every sequence of the mode leads to an action, and all actions are among the given ones. -/
structure Serves (k : Keymap η) (mode : String) (actions : List (Action η)) : Prop where
  leads : ∀ entry ∈ k.table mode, (k.lead? entry.2).isSome
  listed : ∀ entry ∈ k.actions, entry.2 ∈ actions

/-- Keys are resolved without a fault. -/
theorem Serves.resolve (serves : k.Serves mode actions) (tokens : List String) :
    ∃ resolution, effect (resolve mode tokens) k = (.ok resolution, k) := by
  rw [Keymap.resolve, effect_bind_of_ok (effect_get k)]
  dsimp only
  rw [effect_span]
  cases found : OrderedMap.get? (tokens.map Token.normalize) (k.table mode) with
  | some id =>
      have leads := serves.leads _ (OrderedMap.mem_of_get? found)
      obtain ⟨a, lead⟩ := Option.isSome_iff_exists.mp leads
      obtain ⟨b, stored, known⟩ := Option.bind_eq_some_iff.mp lead
      have binding : k.binding id = .ok b := by rw [Keymap.binding, stored]
      have action : k.action b.action = .ok a := by rw [Keymap.action, known]
      simp only [binding, action, effect_bind, effect_ofExcept, effect_annotate, effect_pure]
      exact ⟨_, rfl⟩
  | none =>
      dsimp only
      split
      · exact ⟨_, rfl⟩
      · exact ⟨_, rfl⟩

end Keymap

end LinkerScriptEditor
