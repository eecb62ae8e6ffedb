import LinkerScriptEditor.Proofs.Keymap.Aligned

/-!
# Bindings that replace others

A binding that may replace others is never refused as long as its action is there. Bindings that do
not clash among themselves leave each other alone, so they all end up last, in order, behind those
that clash with none of them. To put them in once more makes no difference.
-/

namespace LinkerScriptEditor.Keymap

open Traced

variable {η : Type} {k : Keymap η} {b : Binding} {bindings : List Binding}

/-- Puts a binding in the place of all that clash with it. -/
def replace (b : Binding) (k : Keymap η) : Keymap η := k.putBinding b (k.conflicts b)

def replaceAll (bindings : List Binding) (k : Keymap η) : Keymap η :=
  bindings.foldl (fun k b => k.replace b) k

/-- The actions of some bindings are there. -/
def Acting (k : Keymap η) (bindings : List Binding) : Prop :=
  ∀ b ∈ bindings, (OrderedMap.get? b.action k.actions).isSome

theorem Coherent.detectConflicts_eq (coherent : k.Coherent) (b : Binding) :
    k.detectConflicts b = .ok (k.conflicts b) := by
  obtain ⟨others, found, -⟩ := coherent.exists_conflicts b
  rw [conflicts, found]

theorem Coherent.effect_registerBinding_true (coherent : k.Coherent)
    (acts : (OrderedMap.get? b.action k.actions).isSome) :
    effect (registerBinding b true) k = (.ok (), k.replace b) := by
  have known : ¬(OrderedMap.get? b.action k.actions).isNone = true :=
    Bool.eq_false_iff.mp (Option.isNone_eq_false_iff.mpr acts)
  rw [effect_registerBinding true (coherent.detectConflicts_eq b), if_neg known]
  rfl

section Step

theorem actions_replace (b : Binding) (k : Keymap η) : (k.replace b).actions = k.actions :=
  actions_putBinding b _ k

theorem logger_replace (b : Binding) (k : Keymap η) : (k.replace b).logger = k.logger := by
  rw [replace, putBinding]
  generalize k.conflicts b ++ (OrderedMap.get? b.id k.bindings).toList = stale
  change (stale.foldl (fun k old => k.drop old) k).logger = k.logger
  induction stale generalizing k with
  | nil => rfl
  | cons old rest ih => exact ih (k.drop old)

/-- A binding adds the table of its mode, if there is none yet. -/
theorem keys_tables_replace_of_mem (mem : b.mode ∈ OrderedMap.keys k.tables) :
    OrderedMap.keys (k.replace b).tables = OrderedMap.keys k.tables := by
  rw [replace, putBinding]
  generalize k.conflicts b ++ (OrderedMap.get? b.id k.bindings).toList = stale
  have kept : ∀ k : Keymap η,
      OrderedMap.keys (stale.foldl (fun k old => k.drop old) k).tables =
        OrderedMap.keys k.tables := by
    induction stale with
    | nil => exact fun k => rfl
    | cons old rest ih => exact fun k => (ih (k.drop old)).trans (keys_tables_drop old k)
  rw [insert]
  dsimp only
  rw [OrderedMap.keys_put_of_mem (kept k ▸ mem), kept]

/-- A mode that has bindings has a table. -/
theorem Coherent.mode_mem (coherent : k.Coherent) (there : k.stored b.id = some b) :
    b.mode ∈ OrderedMap.keys k.tables := by
  have held := coherent.indexed there
  by_contra absent
  rw [idAt, table, OrderedMap.get?_eq_none_iff.mpr absent] at held
  cases held

end Step

section Run

theorem actions_replaceAll (bindings : List Binding) (k : Keymap η) :
    (k.replaceAll bindings).actions = k.actions := by
  induction bindings generalizing k with
  | nil => rfl
  | cons b rest ih => exact (ih (k.replace b)).trans (actions_replace b k)

theorem logger_replaceAll (bindings : List Binding) (k : Keymap η) :
    (k.replaceAll bindings).logger = k.logger := by
  induction bindings generalizing k with
  | nil => rfl
  | cons b rest ih => exact (ih (k.replace b)).trans (logger_replace b k)

theorem keys_tables_replaceAll_of_mem
    (mem : ∀ b ∈ bindings, b.mode ∈ OrderedMap.keys k.tables) :
    OrderedMap.keys (k.replaceAll bindings).tables = OrderedMap.keys k.tables := by
  induction bindings generalizing k with
  | nil => rfl
  | cons b rest ih =>
      obtain ⟨first, later⟩ := List.forall_mem_cons.mp mem
      have same := keys_tables_replace_of_mem first
      exact (ih (same ▸ later)).trans same

theorem Acting.replace (acting : k.Acting bindings) (b : Binding) :
    (k.replace b).Acting bindings := by
  rw [Acting, actions_replace]
  exact acting

theorem Coherent.replaceAll (coherent : k.Coherent) (acting : k.Acting bindings) :
    (k.replaceAll bindings).Coherent := by
  induction bindings generalizing k with
  | nil => exact coherent
  | cons b rest ih =>
      obtain ⟨acts, later⟩ := List.forall_mem_cons.mp acting
      exact ih (coherent.putBinding (coherent.detectConflicts_eq b) acts)
        (Acting.replace later b)

theorem Aligned.replaceAll (aligned : k.Aligned) (coherent : k.Coherent)
    (acting : k.Acting bindings) : (k.replaceAll bindings).Aligned := by
  induction bindings generalizing k with
  | nil => exact aligned
  | cons b rest ih =>
      obtain ⟨acts, later⟩ := List.forall_mem_cons.mp acting
      have conflicts := coherent.detectConflicts_eq b
      exact ih (coherent.aligned_putBinding conflicts aligned) (coherent.putBinding conflicts acts)
        (Acting.replace later b)

/-- Bindings that do not clash with each other go last, and what clashes with one of them goes. -/
theorem Coherent.bindingsOf_replaceAll (coherent : k.Coherent) (acting : k.Acting bindings)
    (distinct : bindings.Pairwise fun a b => ¬a.Clashes b) :
    (k.replaceAll bindings).bindingsOf none =
      (k.bindingsOf none).filter (fun other => ∀ b ∈ bindings, ¬other.Clashes b) ++ bindings := by
  induction bindings generalizing k with
  | nil =>
      change k.bindingsOf none = _
      simp
  | cons b rest ih =>
      obtain ⟨clear, distinct⟩ := List.pairwise_cons.mp distinct
      obtain ⟨acts, later⟩ := List.forall_mem_cons.mp acting
      have conflicts := coherent.detectConflicts_eq b
      have others := ih (coherent.putBinding conflicts acts) (Acting.replace later b) distinct
      have kept : [b].filter (fun other => ∀ c ∈ rest, ¬other.Clashes c) = [b] := by
        simpa using clear
      rw [coherent.bindingsOf_putBinding conflicts, List.filter_append, kept,
        List.filter_filter, List.append_assoc, List.singleton_append] at others
      refine others.trans (congrArg (· ++ b :: rest) (List.filter_congr fun other mem => ?_))
      rw [← Bool.decide_and]
      rw [decide_eq_decide, List.forall_mem_cons, and_comm]

/-- Bindings that are all there already are put in once more, and nothing has changed. -/
theorem Aligned.replaceAll_replaceAll (aligned : k.Aligned) (coherent : k.Coherent)
    (acting : k.Acting bindings) (distinct : bindings.Pairwise fun a b => ¬a.Clashes b) :
    (k.replaceAll bindings).replaceAll bindings = k.replaceAll bindings := by
  have first := coherent.replaceAll acting
  have lined := aligned.replaceAll coherent acting
  have still : (k.replaceAll bindings).Acting bindings := by
    rw [Acting, actions_replaceAll]
    exact acting
  have listed := coherent.bindingsOf_replaceAll acting distinct
  apply Aligned.ext (lined.replaceAll first still) (first.replaceAll still) lined first
  · exact logger_replaceAll bindings _
  · exact actions_replaceAll bindings _
  · rw [first.bindingsOf_replaceAll still distinct, listed, List.filter_append,
      List.filter_filter]
    have gone : bindings.filter (fun other => ∀ b ∈ bindings, ¬other.Clashes b) = [] := by
      rw [List.filter_eq_nil_iff]
      intro b mem free
      exact of_decide_eq_true free b mem (.inl rfl)
    simp only [gone, Bool.and_self, List.append_nil]
  · apply keys_tables_replaceAll_of_mem
    intro b mem
    have there : b ∈ (k.replaceAll bindings).bindingsOf none := by
      rw [listed]
      exact List.mem_append_right _ mem
    exact first.mode_mem (first.stored_of_mem there)

end Run

end LinkerScriptEditor.Keymap
