import LinkerScriptEditor.Keymap
import LinkerScriptEditor.Proofs.OrderedMap

/-!
# Coherent keymaps

The bindings of a keymap and the tables of its modes are inverse to each other: a table names the
binding that has its mode and the sequence, and every binding is found under its own sequence.
Dropping a binding takes out both sides, and a binding is put in once neither side is taken. So
replacing keeps a keymap coherent, whether the stale binding has the sequence, the name, or both.
-/

namespace LinkerScriptEditor

/-- Two bindings clash if they share a name, or share a mode and a sequence. -/
def Binding.Clashes (a b : Binding) : Prop :=
  a.id = b.id ∨ a.mode = b.mode ∧ a.sequence.tokens = b.sequence.tokens

namespace Keymap

variable {η : Type} {k : Keymap η} {b other : Binding} {mode id : String} {tokens : List String}

/-- The binding of a name. -/
def stored (k : Keymap η) (id : String) : Option Binding := OrderedMap.get? id k.bindings

theorem binding_eq_ok_iff_stored : k.binding id = .ok b ↔ k.stored id = some b := by
  rw [binding, stored]
  cases OrderedMap.get? id k.bindings with
  | none => simp
  | some c => simp

/-- The name that the table of a mode has under a sequence. -/
def idAt (k : Keymap η) (mode : String) (tokens : List String) : Option String :=
  OrderedMap.get? tokens (k.table mode)

structure Coherent (k : Keymap η) : Prop where
  ids : (OrderedMap.keys k.bindings).Nodup
  sequences : ∀ mode, (OrderedMap.keys (k.table mode)).Nodup
  named : ∀ {id b}, k.stored id = some b → b.id = id
  indexed : ∀ {id b}, k.stored id = some b → k.idAt b.mode b.sequence.tokens = some id
  backed : ∀ {mode tokens id}, k.idAt mode tokens = some id →
    ∃ b, k.stored id = some b ∧ b.mode = mode ∧ b.sequence.tokens = tokens
  acting : ∀ {id b}, k.stored id = some b → (OrderedMap.get? b.action k.actions).isSome

theorem coherent_empty (logger : String) : (empty logger : Keymap η).Coherent where
  ids := List.nodup_nil
  sequences _ := List.nodup_nil
  named := nofun
  indexed := nofun
  backed := nofun
  acting := nofun

section Steps

theorem table_of_tables_eq_put {next : Keymap η} {table : SequenceTable}
    (put : next.tables = OrderedMap.put mode table k.tables) (other : String) :
    next.table other = if mode = other then table else k.table other := by
  rw [Keymap.table, put, OrderedMap.get?_put, Keymap.table]
  split <;> rfl

theorem table_drop (b : Binding) (k : Keymap η) (mode : String) :
    (k.drop b).table mode =
      if b.mode = mode ∧ k.idAt b.mode b.sequence.tokens = some b.id then
        OrderedMap.erase b.sequence.tokens (k.table mode)
      else k.table mode := by
  by_cases own : k.idAt b.mode b.sequence.tokens = some b.id
  · have put : (k.drop b).tables =
        OrderedMap.put b.mode (OrderedMap.erase b.sequence.tokens (k.table b.mode)) k.tables :=
      if_pos own
    rw [table_of_tables_eq_put put]
    by_cases same : b.mode = mode
    · rw [if_pos same, if_pos ⟨same, own⟩, same]
    · rw [if_neg same, if_neg fun both => same both.1]
  · have kept : (k.drop b).tables = k.tables := if_neg own
    rw [if_neg fun both => own both.2, Keymap.table, Keymap.table, kept]

theorem stored_drop (b : Binding) (k : Keymap η) (id : String) :
    (k.drop b).stored id = if b.id = id then none else k.stored id :=
  OrderedMap.get?_erase b.id id k.bindings

theorem stored_drop_eq_some :
    (k.drop b).stored id = some other ↔ b.id ≠ id ∧ k.stored id = some other := by
  rw [stored_drop]
  by_cases same : b.id = id
  · simp [same]
  · simp [same]

theorem idAt_drop (b : Binding) (k : Keymap η) (mode : String) (tokens : List String) :
    (k.drop b).idAt mode tokens =
      if (b.mode = mode ∧ b.sequence.tokens = tokens) ∧ k.idAt mode tokens = some b.id then none
      else k.idAt mode tokens := by
  rw [idAt, table_drop]
  by_cases same : b.mode = mode
  · subst same
    by_cases own : k.idAt b.mode b.sequence.tokens = some b.id
    · rw [if_pos ⟨rfl, own⟩, OrderedMap.get?_erase]
      by_cases sequence : b.sequence.tokens = tokens
      · subst sequence
        rw [if_pos rfl, if_pos ⟨⟨rfl, rfl⟩, own⟩]
      · rw [if_neg sequence, if_neg fun all => sequence all.1.2, idAt]
    · rw [if_neg fun both => own both.2, if_neg, idAt]
      rintro ⟨⟨-, rfl⟩, found⟩
      exact own found
  · rw [if_neg fun both => same both.1, if_neg fun all => same all.1.1, idAt]

theorem stored_insert (b : Binding) (k : Keymap η) (id : String) :
    (k.insert b).stored id = if b.id = id then some b else k.stored id :=
  OrderedMap.get?_put b.id id b k.bindings

theorem table_insert (b : Binding) (k : Keymap η) (mode : String) :
    (k.insert b).table mode =
      if b.mode = mode then OrderedMap.put b.sequence.tokens b.id (k.table b.mode)
      else k.table mode :=
  table_of_tables_eq_put rfl mode

theorem idAt_insert (b : Binding) (k : Keymap η) (mode : String) (tokens : List String) :
    (k.insert b).idAt mode tokens =
      if b.mode = mode ∧ b.sequence.tokens = tokens then some b.id else k.idAt mode tokens := by
  rw [idAt, table_insert]
  by_cases same : b.mode = mode
  · subst same
    rw [if_pos rfl, OrderedMap.get?_put, idAt]
    simp only [true_and]
  · rw [if_neg same, if_neg fun both => same both.1, idAt]

end Steps

theorem Coherent.putAction (coherent : k.Coherent) (a : Action η) :
    (k.putAction a).Coherent where
  ids := coherent.ids
  sequences := coherent.sequences
  named := coherent.named
  indexed := coherent.indexed
  backed := coherent.backed
  acting := by
    intro id b found
    rw [Keymap.putAction, OrderedMap.get?_put]
    split
    · rfl
    · exact coherent.acting found

/-- A binding can be dropped if it is the one of its name, or there is none. -/
theorem Coherent.drop (coherent : k.Coherent) (own : ∀ c, k.stored b.id = some c → c = b) :
    (k.drop b).Coherent where
  ids := OrderedMap.nodup_keys_erase coherent.ids
  sequences := by
    intro mode
    rw [table_drop]
    split
    · exact OrderedMap.nodup_keys_erase (coherent.sequences mode)
    · exact coherent.sequences mode
  named := fun found => coherent.named (stored_drop_eq_some.mp found).2
  indexed := by
    intro id c found
    obtain ⟨ne, before⟩ := stored_drop_eq_some.mp found
    have named := coherent.indexed before
    rw [idAt_drop, if_neg, named]
    rintro ⟨-, dropped⟩
    rw [named] at dropped
    exact ne (Option.some.inj dropped).symm
  backed := by
    intro mode tokens id found
    rw [idAt_drop] at found
    split at found
    · cases found
    · next elsewhere =>
        obtain ⟨c, before, rfl, rfl⟩ := coherent.backed found
        refine ⟨c, stored_drop_eq_some.mpr ⟨?_, before⟩, rfl, rfl⟩
        rintro rfl
        obtain rfl := own c before
        exact elsewhere ⟨⟨rfl, rfl⟩, found⟩
  acting := fun found => coherent.acting (stored_drop_eq_some.mp found).2

/-- A binding can be put in if neither its name nor its sequence is taken. -/
theorem Coherent.insert (coherent : k.Coherent) (fresh : k.stored b.id = none)
    (free : k.idAt b.mode b.sequence.tokens = none)
    (acts : (OrderedMap.get? b.action k.actions).isSome) : (k.insert b).Coherent where
  ids := OrderedMap.nodup_keys_put coherent.ids
  sequences := by
    intro mode
    rw [table_insert]
    split
    · exact OrderedMap.nodup_keys_put (coherent.sequences b.mode)
    · exact coherent.sequences mode
  named := by
    intro id c found
    rw [stored_insert] at found
    split at found
    · next same =>
        cases found
        exact same
    · exact coherent.named found
  indexed := by
    intro id c found
    rw [stored_insert] at found
    rw [idAt_insert]
    split at found
    · next same =>
        cases found
        rw [if_pos ⟨rfl, rfl⟩, same]
    · have before := coherent.indexed found
      rw [if_neg, before]
      rintro ⟨same, sequence⟩
      rw [← same, ← sequence, free] at before
      cases before
  backed := by
    intro mode tokens id found
    rw [idAt_insert] at found
    split at found
    · next own =>
        cases found
        exact ⟨b, by rw [stored_insert, if_pos rfl], own⟩
    · obtain ⟨c, before, own⟩ := coherent.backed found
      refine ⟨c, ?_, own⟩
      rw [stored_insert, if_neg, before]
      rintro rfl
      rw [fresh] at before
      cases before
  acting := by
    intro id c found
    rw [stored_insert] at found
    split at found
    · cases found
      exact acts
    · exact coherent.acting found

section Stale

variable {stale others : List Binding}

theorem actions_foldl_drop (stale : List Binding) (k : Keymap η) :
    (stale.foldl (fun k old => k.drop old) k).actions = k.actions := by
  induction stale generalizing k with
  | nil => rfl
  | cons old stale ih => exact ih (k.drop old)

theorem stored_foldl_drop_eq_some :
    (stale.foldl (fun k old => k.drop old) k).stored id = some other ↔
      (∀ old ∈ stale, old.id ≠ id) ∧ k.stored id = some other := by
  induction stale generalizing k with
  | nil => simp
  | cons old stale ih =>
      rw [List.foldl_cons, ih, stored_drop_eq_some, List.forall_mem_cons, and_left_comm, and_assoc]

theorem Coherent.foldl_drop (coherent : k.Coherent)
    (own : ∀ old ∈ stale, ∀ c, k.stored old.id = some c → c = old) :
    (stale.foldl (fun k old => k.drop old) k).Coherent := by
  induction stale generalizing k with
  | nil => exact coherent
  | cons old stale ih =>
      obtain ⟨first, rest⟩ := List.forall_mem_cons.mp own
      apply ih (coherent.drop first)
      intro later mem c found
      exact rest later mem c (stored_drop_eq_some.mp found).2

/-- Conflicts can always be told: they are the bindings of other names with the same mode and
sequence. -/
theorem Coherent.exists_conflicts (coherent : k.Coherent) (b : Binding) :
    ∃ others, k.detectConflicts b = .ok others ∧
      ∀ other, other ∈ others ↔ k.stored other.id = some other ∧ other.id ≠ b.id ∧
        other.mode = b.mode ∧ other.sequence.tokens = b.sequence.tokens := by
  have unindexed : ∀ other, k.stored other.id = some other → other.mode = b.mode →
      other.sequence.tokens = b.sequence.tokens →
      k.idAt b.mode b.sequence.tokens = some other.id := by
    intro other found mode sequence
    rw [← mode, ← sequence]
    exact coherent.indexed found
  rw [detectConflicts]
  cases taken : OrderedMap.get? b.sequence.tokens (k.table b.mode) with
  | none =>
      refine ⟨[], rfl, fun other => iff_of_false List.not_mem_nil ?_⟩
      rintro ⟨found, -, mode, sequence⟩
      cases taken.symm.trans (unindexed other found mode sequence)
  | some id =>
      dsimp only
      by_cases own : id = b.id
      · refine ⟨[], if_pos own, fun other => iff_of_false List.not_mem_nil ?_⟩
        rintro ⟨found, ne, mode, sequence⟩
        cases taken.symm.trans (unindexed other found mode sequence)
        exact ne own
      · obtain ⟨c, found, mode, sequence⟩ := coherent.backed taken
        have name := coherent.named found
        refine ⟨[c], ?_, fun other => ?_⟩
        · rw [if_neg own, binding_eq_ok_iff_stored.mpr found]
          rfl
        rw [List.mem_singleton]
        constructor
        · rintro rfl
          exact ⟨name ▸ found, name ▸ own, mode, sequence⟩
        · rintro ⟨there, -, same, tokens⟩
          have ids := taken.symm.trans (unindexed other there same tokens)
          cases ids
          exact Option.some.inj (there.symm.trans found)

theorem Coherent.mem_conflicts (coherent : k.Coherent)
    (conflicts : k.detectConflicts b = .ok others) :
    other ∈ others ↔ k.stored other.id = some other ∧ other.id ≠ b.id ∧
      other.mode = b.mode ∧ other.sequence.tokens = b.sequence.tokens := by
  obtain ⟨found, answer, mem⟩ := coherent.exists_conflicts b
  obtain rfl : found = others := Except.ok.inj (answer.symm.trans conflicts)
  exact mem other

/-- What a binding replaces is there. -/
theorem Coherent.stored_of_stale (coherent : k.Coherent)
    (conflicts : k.detectConflicts b = .ok others)
    (isStale : other ∈ others ++ (k.stored b.id).toList) : k.stored other.id = some other := by
  rcases List.mem_append.mp isStale with conflicting | named
  · exact ((coherent.mem_conflicts conflicts).mp conflicting).1
  · have same := Option.mem_toList.mp named
    rwa [coherent.named same]

/-- A binding replaces those of the stored ones that clash with it. -/
theorem Coherent.stale_iff (coherent : k.Coherent)
    (conflicts : k.detectConflicts b = .ok others) (there : k.stored other.id = some other) :
    (∃ old ∈ others ++ (k.stored b.id).toList, old.id = other.id) ↔ other.Clashes b := by
  constructor
  · rintro ⟨old, isStale, name⟩
    have stored := coherent.stored_of_stale conflicts isStale
    obtain rfl : old = other := by
      rw [name, there] at stored
      exact (Option.some.inj stored).symm
    rcases List.mem_append.mp isStale with conflicting | named
    · exact .inr ((coherent.mem_conflicts conflicts).mp conflicting).2.2
    · exact .inl (coherent.named (Option.mem_toList.mp named))
  · intro clash
    by_cases name : other.id = b.id
    · have named : other ∈ (k.stored b.id).toList := Option.mem_toList.mpr (name ▸ there)
      exact ⟨other, List.mem_append_right others named, rfl⟩
    · have own := clash.resolve_left name
      have conflicting : other ∈ others :=
        (coherent.mem_conflicts conflicts).mpr ⟨there, name, own⟩
      exact ⟨other, List.mem_append_left _ conflicting, rfl⟩

/-- Once what a binding replaces is gone, its name and its sequence are free. -/
theorem Coherent.room_foldl_drop (coherent : k.Coherent)
    (conflicts : k.detectConflicts b = .ok others) :
    let dropped := (others ++ (k.stored b.id).toList).foldl (fun k old => k.drop old) k
    dropped.Coherent ∧ dropped.stored b.id = none ∧
      dropped.idAt b.mode b.sequence.tokens = none := by
  intro dropped
  have stays : dropped.Coherent := by
    apply coherent.foldl_drop
    intro old isStale c there
    exact Option.some.inj (there.symm.trans (coherent.stored_of_stale conflicts isStale))
  have kept : ∀ c, dropped.stored c.id = some c → ¬c.Clashes b := by
    intro c found clash
    obtain ⟨gone, before⟩ := stored_foldl_drop_eq_some.mp found
    obtain ⟨old, isStale, name⟩ := (coherent.stale_iff conflicts before).mpr clash
    exact gone old isStale name
  refine ⟨stays, ?_, ?_⟩
  · rw [Option.eq_none_iff_forall_ne_some]
    intro c found
    have name := stays.named found
    exact kept c (name ▸ found) (.inl name)
  · rw [Option.eq_none_iff_forall_ne_some]
    intro id taken
    obtain ⟨c, found, own⟩ := stays.backed taken
    have name := stays.named found
    exact kept c (name ▸ found) (.inr own)

theorem Coherent.putBinding (coherent : k.Coherent)
    (conflicts : k.detectConflicts b = .ok others)
    (acts : (OrderedMap.get? b.action k.actions).isSome) : (k.putBinding b others).Coherent := by
  obtain ⟨dropped, fresh, free⟩ := coherent.room_foldl_drop conflicts
  apply dropped.insert fresh free
  rw [actions_foldl_drop]
  exact acts

/-- A binding takes the place of all that clash with it, and the others stay. -/
theorem Coherent.stored_putBinding (coherent : k.Coherent)
    (conflicts : k.detectConflicts b = .ok others) :
    (k.putBinding b others).stored other.id = some other ↔
      other = b ∨ k.stored other.id = some other ∧ ¬other.Clashes b := by
  rw [Keymap.putBinding, stored_insert]
  by_cases same : b.id = other.id
  · rw [if_pos same, Option.some_inj, eq_comm, Binding.Clashes]
    refine (or_iff_left ?_).symm
    rintro ⟨-, free⟩
    exact free (.inl same.symm)
  · have ne : other ≠ b := fun own => same (congrArg Binding.id own).symm
    rw [if_neg same, stored_foldl_drop_eq_some, and_comm, or_iff_right ne]
    refine and_congr_right fun there => ?_
    rw [← coherent.stale_iff conflicts there]
    simp only [not_exists, not_and]
    rfl

end Stale

end Keymap

end LinkerScriptEditor
