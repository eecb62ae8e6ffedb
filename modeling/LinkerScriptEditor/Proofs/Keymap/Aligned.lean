import LinkerScriptEditor.Proofs.Keymap.Installing

/-!
# Aligned keymaps

Bindings are put in last and taken out from where they are, and so are their sequences. Hence the
table of a mode lists the bindings of the mode in the order in which they were made, and a keymap is
known by its actions, its list of bindings and the modes that it has tables for.
-/

namespace LinkerScriptEditor

/-- The entry of a binding in the table of its mode. -/
def Binding.entry (b : Binding) : List String × String := (b.sequence.tokens, b.id)

instance (a b : Binding) : Decidable (a.Clashes b) :=
  inferInstanceAs (Decidable (a.id = b.id ∨ a.mode = b.mode ∧
    a.sequence.tokens = b.sequence.tokens))

namespace Keymap

open Traced

variable {η : Type} {k other : Keymap η} {b : Binding} {stale others : List Binding}

/-- The tables list the bindings of their modes in order. -/
structure Aligned (k : Keymap η) : Prop where
  modes : (OrderedMap.keys k.tables).Nodup
  listed : ∀ mode, k.table mode = (k.bindingsOf (some mode)).map Binding.entry

theorem aligned_empty (logger : String) : (empty logger : Keymap η).Aligned where
  modes := List.nodup_nil
  listed _ := rfl

section Dropping

theorem Coherent.stored_of_mem (coherent : k.Coherent) {mode : Option String}
    (mem : b ∈ k.bindingsOf mode) : k.stored b.id = some b :=
  coherent.mem_values.mp (List.mem_filter.mp mem).1

/-- The name under which a binding is kept is its own. -/
theorem Coherent.bindings_eq (coherent : k.Coherent) :
    k.bindings = (k.bindingsOf none).map fun b => (b.id, b) := by
  rw [bindingsOf_none, OrderedMap.values, List.map_map]
  refine (List.map_id _).symm.trans (List.map_congr_left fun entry mem => ?_)
  have name : entry.2.id = entry.1 := coherent.named (OrderedMap.get?_of_mem coherent.ids mem)
  exact Prod.ext name.symm rfl

theorem Coherent.bindingsOf_drop (coherent : k.Coherent) (b : Binding) (mode : Option String) :
    (k.drop b).bindingsOf mode = (k.bindingsOf mode).filter fun c => c.id ≠ b.id := by
  have erased : OrderedMap.values (OrderedMap.erase b.id k.bindings) =
      (k.bindingsOf none).filter fun c => c.id ≠ b.id := by
    rw [OrderedMap.erase_eq_filter, coherent.bindings_eq, OrderedMap.values, List.filter_map,
      List.map_map]
    exact List.map_id _
  rw [bindingsOf, Keymap.drop]
  dsimp only
  rw [erased, bindingsOf_none, List.filter_filter, bindingsOf, List.filter_filter]
  simp only [Bool.and_comm]

/-- A binding is known in the tables by its name. -/
theorem Coherent.table_drop_eq_filter (coherent : k.Coherent)
    (own : ∀ c, k.stored b.id = some c → c = b) (mode : String) :
    (k.drop b).table mode = (k.table mode).filter fun entry => entry.2 ≠ b.id := by
  have names : ∀ entry ∈ k.table mode, entry.2 = b.id →
      b.mode = mode ∧ k.idAt b.mode b.sequence.tokens = some b.id ∧
        entry.1 = b.sequence.tokens := by
    rintro ⟨tokens, id⟩ mem rfl
    obtain ⟨c, known, rfl, rfl⟩ := coherent.mem_table_iff.mp mem
    have found := binding_eq_ok_iff_stored.mp known
    obtain rfl := own c found
    exact ⟨rfl, coherent.indexed found, rfl⟩
  rw [table_drop]
  split
  · next held =>
      obtain ⟨rfl, held⟩ := held
      rw [OrderedMap.erase_eq_filter]
      refine List.filter_congr fun entry mem => decide_eq_decide.mpr (not_congr ?_)
      refine ⟨fun same => ?_, fun same => (names entry mem same).2.2⟩
      have found := OrderedMap.get?_of_mem (coherent.sequences b.mode) mem
      rw [same] at found
      exact Option.some.inj (found.symm.trans held)
  · next free =>
      symm
      rw [List.filter_eq_self]
      intro entry mem
      rw [decide_eq_true_iff]
      intro same
      obtain ⟨rfl, held, -⟩ := names entry mem same
      exact free ⟨rfl, held⟩

/-- A mode that has a table keeps it. -/
theorem keys_tables_drop (b : Binding) (k : Keymap η) :
    OrderedMap.keys (k.drop b).tables = OrderedMap.keys k.tables := by
  rw [Keymap.drop]
  dsimp only
  split
  · next held =>
      apply OrderedMap.keys_put_of_mem
      by_contra absent
      rw [Keymap.table, OrderedMap.get?_eq_none_iff.mpr absent] at held
      cases held
  · rfl

theorem Aligned.drop (aligned : k.Aligned) (coherent : k.Coherent)
    (own : ∀ c, k.stored b.id = some c → c = b) : (k.drop b).Aligned where
  modes := keys_tables_drop b k ▸ aligned.modes
  listed := by
    intro mode
    rw [coherent.table_drop_eq_filter own, aligned.listed, coherent.bindingsOf_drop,
      List.filter_map]
    rfl

end Dropping

section Inserting

theorem bindingsOf_insert_some (fresh : k.stored b.id = none) (mode : String) :
    (k.insert b).bindingsOf (some mode) =
      k.bindingsOf (some mode) ++ if b.mode = mode then [b] else [] := by
  have appended : (k.insert b).bindings = k.bindings ++ [(b.id, b)] :=
    OrderedMap.put_of_get?_eq_none fresh
  rw [bindingsOf, appended, OrderedMap.values, List.map_append, List.filter_append]
  by_cases same : b.mode = mode
  · simp [bindingsOf, OrderedMap.values, same]
  · simp [bindingsOf, OrderedMap.values, same]

theorem Aligned.insert (aligned : k.Aligned) (fresh : k.stored b.id = none)
    (free : k.idAt b.mode b.sequence.tokens = none) : (k.insert b).Aligned where
  modes := OrderedMap.nodup_keys_put aligned.modes
  listed := by
    intro mode
    rw [table_insert, bindingsOf_insert_some fresh, List.map_append]
    by_cases same : b.mode = mode
    · subst same
      rw [if_pos rfl, if_pos rfl, OrderedMap.put_of_get?_eq_none free, aligned.listed]
      rfl
    · rw [if_neg same, if_neg same, aligned.listed, List.map_nil, List.append_nil]

end Inserting

section Replacing

theorem Coherent.aligned_foldl_drop (coherent : k.Coherent) (aligned : k.Aligned)
    (own : ∀ old ∈ stale, ∀ c, k.stored old.id = some c → c = old) :
    (stale.foldl (fun k old => k.drop old) k).Aligned := by
  induction stale generalizing k with
  | nil => exact aligned
  | cons old stale ih =>
      obtain ⟨first, rest⟩ := List.forall_mem_cons.mp own
      apply ih (coherent.drop first) (aligned.drop coherent first)
      intro later mem c found
      exact rest later mem c (stored_drop_eq_some.mp found).2

theorem Coherent.bindingsOf_foldl_drop (coherent : k.Coherent)
    (own : ∀ old ∈ stale, ∀ c, k.stored old.id = some c → c = old) (mode : Option String) :
    (stale.foldl (fun k old => k.drop old) k).bindingsOf mode =
      (k.bindingsOf mode).filter fun c => ∀ old ∈ stale, old.id ≠ c.id := by
  induction stale generalizing k with
  | nil => simp
  | cons old stale ih =>
      obtain ⟨first, rest⟩ := List.forall_mem_cons.mp own
      have later := ih (coherent.drop first)
        fun later mem c found => rest later mem c (stored_drop_eq_some.mp found).2
      rw [List.foldl_cons, later, coherent.bindingsOf_drop, List.filter_filter]
      refine List.filter_congr fun c mem => Bool.eq_iff_iff.mpr ?_
      simp only [Bool.and_eq_true, decide_eq_true_iff, List.forall_mem_cons]
      exact ⟨fun ⟨later, first⟩ => ⟨first.symm, later⟩, fun ⟨first, later⟩ => ⟨later, first.symm⟩⟩

variable (coherent : k.Coherent) (conflicts : k.detectConflicts b = .ok others)
include coherent conflicts

theorem Coherent.aligned_putBinding (aligned : k.Aligned) : (k.putBinding b others).Aligned := by
  obtain ⟨dropped, fresh, free⟩ := coherent.room_foldl_drop conflicts
  refine Aligned.insert (coherent.aligned_foldl_drop aligned ?_) fresh free
  intro old isStale c there
  exact Option.some.inj (there.symm.trans (coherent.stored_of_stale conflicts isStale))

/-- A binding goes last, and all that clash with it are gone from among the others. -/
theorem Coherent.bindingsOf_putBinding :
    (k.putBinding b others).bindingsOf none =
      (k.bindingsOf none).filter (fun other => ¬other.Clashes b) ++ [b] := by
  obtain ⟨dropped, fresh, free⟩ := coherent.room_foldl_drop conflicts
  rw [Keymap.putBinding]
  refine (bindingsOf_insert fresh).trans (congrArg (· ++ [b]) ?_)
  rw [coherent.bindingsOf_foldl_drop]
  · refine List.filter_congr fun other mem => decide_eq_decide.mpr ?_
    rw [← coherent.stale_iff conflicts (coherent.stored_of_mem mem)]
    simp only [not_exists, not_and, ne_eq]
  · intro old isStale c there
    exact Option.some.inj (there.symm.trans (coherent.stored_of_stale conflicts isStale))

end Replacing

/-- Every call keeps a keymap aligned. -/
theorem Aligned.perform (aligned : k.Aligned) (coherent : k.Coherent) (call : Call η) :
    (effect call.perform k).2.Aligned := by
  have performed := coherent.performed call
  generalize effect call.perform k = ran at performed ⊢
  cases performed with
  | refused fault => exact aligned
  | kept => exact aligned
  | acted a => exact ⟨aligned.modes, aligned.listed⟩
  | bound conflicts acts => exact coherent.aligned_putBinding conflicts aligned
  | dropped there =>
      exact aligned.drop coherent fun c found => Option.some.inj (found.symm.trans there)

theorem Aligned.after (aligned : k.Aligned) (coherent : k.Coherent) (calls : List (Call η)) :
    (k.after calls).Aligned := by
  induction calls generalizing k with
  | nil => exact aligned
  | cons call calls ih => exact ih (aligned.perform coherent call) (coherent.perform call).1

/-- A keymap is known by its actions, its bindings and the modes that it has tables for. -/
theorem Aligned.ext (aligned : k.Aligned) (coherent : k.Coherent) (alike : other.Aligned)
    (same : other.Coherent) (logger : k.logger = other.logger)
    (actions : k.actions = other.actions)
    (bindings : k.bindingsOf none = other.bindingsOf none)
    (modes : OrderedMap.keys k.tables = OrderedMap.keys other.tables) : k = other := by
  have entries : k.bindings = other.bindings := by
    rw [coherent.bindings_eq, bindings, ← same.bindings_eq]
  have tables : k.tables = other.tables := by
    apply OrderedMap.eq_of_getD aligned.modes modes []
    intro mode
    change k.table mode = other.table mode
    rw [aligned.listed, alike.listed, bindingsOf, bindingsOf, entries]
  cases k
  cases other
  simp_all

end Keymap

end LinkerScriptEditor
