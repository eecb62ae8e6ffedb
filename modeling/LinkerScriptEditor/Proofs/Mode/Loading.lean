import LinkerScriptEditor.Mode
import LinkerScriptEditor.Proofs.Key.Canonical
import LinkerScriptEditor.Proofs.Keymap.Replacing

/-!
# Loading the bindings of the mode

The actions and the bindings of the linker script mode can be loaded into any keymap if they may
replace what is in their way. The bindings do not clash with each other, so none of them takes
another one's place, wherever bindings of their names or sequences were before. All that is in
nobody's way stays in front of them, and loading once more makes no difference.
-/

namespace LinkerScriptEditor

open Traced

namespace Keymap

variable {η : Type} {k : Keymap η} {a : Action η} {actions : List (Action η)}

theorem actions_putAction (a : Action η) (k : Keymap η) :
    (k.putAction a).actions = OrderedMap.put a.id a k.actions :=
  rfl

theorem get?_putActions_of_not_mem {id : String} (absent : id ∉ actions.map Action.id) :
    OrderedMap.get? id (k.putActions actions).actions = OrderedMap.get? id k.actions := by
  induction actions generalizing k with
  | nil => rfl
  | cons first rest ih =>
      obtain ⟨ne, later⟩ := not_or.mp (mt List.mem_cons.mpr absent)
      refine (ih later).trans ?_
      rw [actions_putAction, OrderedMap.get?_put, if_neg (Ne.symm ne)]

/-- Actions of different names are all there once they are put in. -/
theorem get?_putActions (distinct : (actions.map Action.id).Nodup) (mem : a ∈ actions) :
    OrderedMap.get? a.id (k.putActions actions).actions = some a := by
  induction actions generalizing k with
  | nil => cases mem
  | cons first rest ih =>
      obtain ⟨fresh, distinct⟩ := List.nodup_cons.mp distinct
      rcases List.mem_cons.mp mem with rfl | later
      · refine (get?_putActions_of_not_mem fresh).trans ?_
        rw [actions_putAction, OrderedMap.get?_put, if_pos rfl]
      · exact ih distinct later

theorem putActions_of_known (known : ∀ a ∈ actions, OrderedMap.get? a.id k.actions = some a) :
    k.putActions actions = k := by
  induction actions with
  | nil => rfl
  | cons first rest ih =>
      obtain ⟨here, later⟩ := List.forall_mem_cons.mp known
      have same : k.putAction first = k := by
        rw [putAction, OrderedMap.put_of_get? here]
      exact (congrArg (putActions rest) same).trans (ih later)

theorem Aligned.putActions (aligned : k.Aligned) (actions : List (Action η)) :
    (k.putActions actions).Aligned := by
  induction actions generalizing k with
  | nil => exact aligned
  | cons a rest ih => exact ih ⟨aligned.modes, aligned.listed⟩

/-- A loop that registers all bindings but some is never refused if they may replace others. -/
theorem Coherent.effect_registerBindings (coherent : k.Coherent) (excluded : List String)
    {bindings : List Binding} (acting : k.Acting bindings) :
    effect (forIn bindings PUnit.unit fun b _ =>
      if (!excluded.contains b.id) = true then do
        registerBinding b true
        Pure.pure (ForInStep.yield PUnit.unit)
      else Pure.pure (ForInStep.yield PUnit.unit)) k =
    (.ok PUnit.unit, k.replaceAll (bindings.filter fun b => !excluded.contains b.id)) := by
  induction bindings generalizing k with
  | nil => rfl
  | cons b rest ih =>
      obtain ⟨acts, later⟩ := List.forall_mem_cons.mp acting
      rw [List.forIn_cons, List.filter_cons]
      split
      · have stays := coherent.putBinding (coherent.detectConflicts_eq b) acts
        rw [effect_bind, effect_bind_of_ok (coherent.effect_registerBinding_true acts), effect_pure]
        exact ih stays (Acting.replace later b)
      · rw [effect_bind, effect_pure]
        exact ih coherent later

end Keymap

namespace LinkerScriptMode

/-- The bindings that are loaded. -/
def loaded (excluded : List String) : List Binding :=
  bindings.filter fun b => !excluded.contains b.id

theorem mem_loaded_iff {excluded : List String} {b : Binding} :
    b ∈ loaded excluded ↔ b ∈ bindings ∧ b.id ∉ excluded := by
  simp [loaded]

theorem distinct_actions : (actions.map Action.id).Nodup := by decide

theorem exists_action_of_mem {b : Binding} (mem : b ∈ bindings) :
    ∃ a ∈ actions, a.id = b.action := by
  have all : ∀ b ∈ bindings, b.action ∈ actions.map Action.id := by decide
  exact List.mem_map.mp (all b mem)

theorem distinct_bindings : bindings.Pairwise fun a b => ¬a.Clashes b := by decide

/-- The modifiers that are held with the keys of the mode. -/
def modifiers : List (List (List Char)) := [[], ["CTRL".toList], ["ALT".toList, "CTRL".toList]]

theorem canonical_modifiers {names : List (List Char)} (mem : names ∈ modifiers) :
    Token.canonical names = names := by
  simp only [modifiers, List.mem_cons, List.not_mem_nil, or_false] at mem
  rcases mem with rfl | rfl | rfl <;> exact List.mergeSort_of_pairwise (by decide +kernel)

/-- The sequences of the mode are written in normal form. -/
theorem normal_bindings {b : Binding} (mem : b ∈ bindings) :
    b.sequence.tokens.map Token.normalize = b.sequence.tokens := by
  have chords : ∀ b ∈ bindings, ∀ token ∈ b.sequence.tokens,
      (splitOn '+' token.toList).dropLast ∈ modifiers := by decide +kernel
  refine (List.map_congr_left fun token own => ?_).trans (List.map_id _)
  have split := (List.dropLast_append_getLast (splitOn_ne_nil '+' token.toList)).symm
  exact Token.normalize_of_canonical split (canonical_modifiers (chords b mem token own))

section Loading

variable {k : Keymap Handler} {excluded : List String}

theorem acting_putActions (k : Keymap Handler) (excluded : List String) :
    (k.putActions actions).Acting (loaded excluded) := by
  intro b mem
  obtain ⟨a, found, same⟩ := exists_action_of_mem (mem_loaded_iff.mp mem).1
  rw [← same, Keymap.get?_putActions distinct_actions found]
  rfl

/-- The bindings that are left out make no difference to whether the others clash. -/
theorem distinct_loaded (excluded : List String) :
    (loaded excluded).Pairwise fun a b => ¬a.Clashes b :=
  distinct_bindings.filter _

theorem effect_load (coherent : k.Coherent) (excluded : List String) :
    effect (load true excluded []) k =
      (.ok (), (k.putActions actions).replaceAll (loaded excluded)) := by
  have acting : ∀ b ∈ bindings, (OrderedMap.get? b.action (k.putActions actions).actions).isSome :=
    fun b mem => acting_putActions k [] b (mem_loaded_iff.mpr ⟨mem, List.not_mem_nil⟩)
  have registered := (coherent.putActions actions).effect_registerBindings excluded acting
  rw [load, effect_bind_of_ok (Keymap.effect_registerActions actions k),
    effect_bind_of_ok registered]
  rfl

/-- The keymap that the mode is loaded into. -/
def repaired (k : Keymap Handler) (excluded : List String) : Keymap Handler :=
  (k.putActions actions).replaceAll (loaded excluded)

theorem action_repaired {a : Action Handler} (mem : a ∈ actions) :
    (repaired k excluded).action a.id = .ok a := by
  rw [Keymap.action, repaired, Keymap.actions_replaceAll,
    Keymap.get?_putActions distinct_actions mem]

theorem coherent_repaired (coherent : k.Coherent) (excluded : List String) :
    (repaired k excluded).Coherent :=
  (coherent.putActions actions).replaceAll (acting_putActions k excluded)

theorem bindingsOf_repaired (coherent : k.Coherent) (excluded : List String) :
    (repaired k excluded).bindingsOf none =
      (k.bindingsOf none).filter (fun other => ∀ b ∈ loaded excluded, ¬other.Clashes b) ++
        loaded excluded := by
  rw [repaired, (coherent.putActions actions).bindingsOf_replaceAll (acting_putActions k excluded)
    (distinct_loaded excluded), Keymap.bindingsOf_putActions]

theorem effect_resolve_repaired (coherent : k.Coherent) {b : Binding} {a : Action Handler}
    (mem : b ∈ loaded excluded) (own : a ∈ actions) (same : a.id = b.action)
    {tokens : List String} (spelled : tokens.map Token.normalize = b.sequence.tokens) :
    effect (Keymap.resolve b.mode tokens) (repaired k excluded) =
      (.ok (.found b a tokens.length), repaired k excluded) := by
  have stays := coherent_repaired coherent excluded
  have listed : b ∈ (repaired k excluded).bindingsOf none := by
    rw [bindingsOf_repaired coherent]
    exact List.mem_append_right _ mem
  apply stays.effect_resolve_of_mem
  · exact stays.mem_bindingsOf_some.mpr ⟨stays.stored_of_mem listed, rfl⟩
  · exact same ▸ action_repaired own
  · exact spelled

theorem repaired_repaired (coherent : k.Coherent) (aligned : k.Aligned) (excluded : List String) :
    repaired (repaired k excluded) excluded = repaired k excluded := by
  have known : (repaired k excluded).putActions actions = repaired k excluded :=
    Keymap.putActions_of_known fun a mem => by
      rw [repaired, Keymap.actions_replaceAll, Keymap.get?_putActions distinct_actions mem]
  rw [repaired, known]
  exact (aligned.putActions actions).replaceAll_replaceAll (coherent.putActions actions)
    (acting_putActions k excluded) (distinct_loaded excluded)

end Loading

/-- Whatever a keymap went through, the mode can be loaded into it if it may replace what is there.
Then all its actions are there, all its bindings that are not left out are stored and are found by
their keys, behind all others that clash with none of them, and to load it again changes nothing. -/
theorem load_repairs (logger : String) (calls : List (Keymap.Call Handler))
    (excluded : List String) :
    let before : Keymap Handler := (Keymap.empty logger).after calls
    ∃ after, effect (load true excluded []) before = (.ok (), after) ∧
      (∀ a ∈ actions, after.action a.id = .ok a) ∧
      (∀ b ∈ loaded excluded, after.binding b.id = .ok b ∧
        b.sequence.tokens.map Token.normalize = b.sequence.tokens ∧
        ∃ a ∈ actions, a.id = b.action ∧ ∀ tokens : List String,
          tokens.map Token.normalize = b.sequence.tokens →
          effect (Keymap.resolve b.mode tokens) after = (.ok (.found b a tokens.length), after)) ∧
      after.bindingsOf none =
        (before.bindingsOf none).filter (fun other => ∀ b ∈ loaded excluded, ¬other.Clashes b) ++
          loaded excluded ∧
      effect (load true excluded []) after = (.ok (), after) := by
  intro before
  have coherent : before.Coherent := (Keymap.coherent_empty logger).after calls
  have aligned : before.Aligned :=
    (Keymap.aligned_empty logger).after (Keymap.coherent_empty logger) calls
  have stays := coherent_repaired coherent excluded
  have listed := bindingsOf_repaired coherent excluded
  refine ⟨repaired before excluded, effect_load coherent excluded, fun a => action_repaired,
    fun b mem => ?_, listed, ?_⟩
  · obtain ⟨isBinding, -⟩ := mem_loaded_iff.mp mem
    obtain ⟨a, own, same⟩ := exists_action_of_mem isBinding
    refine ⟨?_, normal_bindings isBinding, a, own, same, fun tokens spelled =>
      effect_resolve_repaired coherent mem own same spelled⟩
    rw [stays.binding_eq_ok_iff, listed]
    exact ⟨List.mem_append_right _ mem, rfl⟩
  · rw [effect_load stays]
    exact congrArg _ (repaired_repaired coherent aligned excluded)

/-- A binding that has the name of one of the mode's and the keys of another gives way to both. What
clashes only with a binding that is left out stays, in front. -/
example :
    let k : Keymap Handler := (Keymap.empty "").after [
      .registerAction ⟨"act", Pure.pure (.value .null), none⟩ false,
      .registerBinding ⟨"mine", "ld-script", ⟨["CTRL+z"]⟩, "act", none⟩ false,
      .registerBinding ⟨"ld-script.tab", "ld-script", ⟨["ENTER"]⟩, "act", none⟩ false]
    ((effect (load true ["ld-script.undo"] []) k).2.bindingsOf none).map Binding.id =
      ["mine", "ld-script.tab", "ld-script.enter", "ld-script.indent_region",
        "ld-script.indent_region_seq", "ld-script.backspace", "ld-script.redo", "ld-script.left",
        "ld-script.right", "ld-script.up", "ld-script.down"] := by
  decide +kernel

end LinkerScriptMode

end LinkerScriptEditor
