import LinkerScriptEditor.Proofs.Keymap.Coherence
import LinkerScriptEditor.Proofs.Log.Effect

/-!
# Answers of a coherent keymap

In a coherent keymap every look-up can be told from the list of its bindings: what the tables hold,
which action a binding leads to, and what keys come to. Keys are resolved without a fault.
-/

namespace LinkerScriptEditor.Keymap

open Traced

variable {η : Type} {k : Keymap η} {b : Binding}

section Listing

theorem Coherent.mem_values (coherent : k.Coherent) :
    b ∈ OrderedMap.values k.bindings ↔ k.stored b.id = some b := by
  constructor
  · intro mem
    obtain ⟨⟨id, c⟩, entry, rfl⟩ := List.mem_map.mp mem
    have found : k.stored id = some c := OrderedMap.get?_of_mem coherent.ids entry
    dsimp only
    rw [coherent.named found]
    exact found
  · intro found
    exact List.mem_map.mpr ⟨(b.id, b), OrderedMap.mem_of_get? found, rfl⟩

theorem Coherent.mem_bindingsOf_none (coherent : k.Coherent) :
    b ∈ k.bindingsOf none ↔ k.stored b.id = some b := by
  rw [bindingsOf, List.mem_filter, coherent.mem_values]
  exact and_iff_left rfl

theorem Coherent.mem_bindingsOf_some (coherent : k.Coherent) {mode : String} :
    b ∈ k.bindingsOf (some mode) ↔ k.stored b.id = some b ∧ b.mode = mode := by
  rw [bindingsOf, List.mem_filter, coherent.mem_values, Option.all_some, beq_iff_eq]

theorem Coherent.mem_bindingsOf_some_of_binding (coherent : k.Coherent) {id : String}
    (known : k.binding id = .ok b) : b ∈ k.bindingsOf (some b.mode) := by
  have found := binding_eq_ok_iff_stored.mp known
  exact coherent.mem_bindingsOf_some.mpr ⟨coherent.named found ▸ found, rfl⟩

theorem Coherent.mem_table_iff (coherent : k.Coherent) {mode id : String} {tokens : List String} :
    (tokens, id) ∈ k.table mode ↔
      ∃ b, k.binding id = .ok b ∧ b.mode = mode ∧ b.sequence.tokens = tokens := by
  simp only [OrderedMap.mem_iff_get? (coherent.sequences mode), binding_eq_ok_iff_stored]
  constructor
  · exact coherent.backed
  · rintro ⟨b, there, rfl, rfl⟩
    exact coherent.indexed there

theorem Coherent.binding_eq_ok_iff (coherent : k.Coherent) {id : String} :
    k.binding id = .ok b ↔ b ∈ k.bindingsOf none ∧ b.id = id := by
  rw [binding_eq_ok_iff_stored, coherent.mem_bindingsOf_none]
  constructor
  · intro found
    have name := coherent.named found
    exact ⟨name ▸ found, name⟩
  · rintro ⟨found, rfl⟩
    exact found

theorem Coherent.exists_action (coherent : k.Coherent) (mem : b ∈ k.bindingsOf none) :
    ∃ a, k.action b.action = .ok a := by
  have acts := coherent.acting (coherent.mem_bindingsOf_none.mp mem)
  obtain ⟨a, found⟩ := Option.isSome_iff_exists.mp acts
  exact ⟨a, by rw [action, found]⟩

/-- No two bindings share a name, and no two of a mode a sequence. -/
theorem Coherent.pairwise_bindings (coherent : k.Coherent) :
    (k.bindingsOf none).Pairwise fun a b => ¬a.Clashes b := by
  have entries : ∀ entry ∈ k.bindings, entry.1 = entry.2.id := fun entry mem =>
    (coherent.named (OrderedMap.get?_of_mem coherent.ids mem)).symm
  have ids : (OrderedMap.values k.bindings).Pairwise fun a b => a.id ≠ b.id := by
    rw [OrderedMap.values, List.pairwise_map]
    apply (List.pairwise_map.mp coherent.ids).imp_of_mem
    intro a b memA memB ne
    rwa [← entries a memA, ← entries b memB]
  have all : k.bindingsOf none = OrderedMap.values k.bindings :=
    List.filter_eq_self.mpr fun _ _ => rfl
  rw [all]
  apply ids.imp_of_mem
  intro a b memA memB ne clash
  rcases clash with name | ⟨mode, sequence⟩
  · exact ne name
  · have atA := coherent.indexed (coherent.mem_values.mp memA)
    have atB := coherent.indexed (coherent.mem_values.mp memB)
    rw [mode, sequence, atB] at atA
    exact ne (Option.some.inj atA).symm

/-- A binding is found by its sequence. -/
theorem Coherent.eq_of_tokens (coherent : k.Coherent) {mode : String} {other : Binding}
    (mem : b ∈ k.bindingsOf (some mode)) (listed : other ∈ k.bindingsOf (some mode))
    (same : other.sequence.tokens = b.sequence.tokens) : other = b := by
  obtain ⟨there, rfl⟩ := coherent.mem_bindingsOf_some.mp mem
  obtain ⟨stored, mode⟩ := coherent.mem_bindingsOf_some.mp listed
  have own := coherent.indexed stored
  rw [mode, same, coherent.indexed there] at own
  rw [← Option.some.inj own, there] at stored
  exact (Option.some.inj stored).symm

end Listing

section Resolving

/-- What keys come to by the bindings that are stored for the mode. -/
structure Answers (k : Keymap η) (mode : String) (tokens : List String)
    (answer : Resolution η) : Prop where
  found : (∃ b a used, answer = .found b a used) ↔
    ∃ b ∈ k.bindingsOf (some mode), b.sequence.tokens = tokens
  pending : (∃ used, answer = .pending used) ↔
    (¬∃ b ∈ k.bindingsOf (some mode), b.sequence.tokens = tokens) ∧
      ∃ b ∈ k.bindingsOf (some mode), tokens <+: b.sequence.tokens ∧ b.sequence.tokens ≠ tokens
  miss : answer = .miss ↔ ¬∃ b ∈ k.bindingsOf (some mode), tokens <+: b.sequence.tokens
  own : ∀ b a used, answer = .found b a used → b ∈ k.bindingsOf (some mode) ∧
    b.sequence.tokens = tokens ∧ k.action b.action = .ok a ∧ used = tokens.length
  used : ∀ used, answer = .pending used → used = tokens.length

theorem isStart_iff {table : SequenceTable} {tokens : List String} :
    isStart table tokens = true ↔ ∃ entry ∈ table, tokens <+: entry.1 ∧ entry.1 ≠ tokens := by
  rw [isStart, List.any_eq_true]
  refine exists_congr fun entry => and_congr_right fun _ => ?_
  rw [Bool.and_eq_true, decide_eq_true_iff, beq_iff_eq, List.prefix_iff_eq_take]
  constructor
  · rintro ⟨longer, start⟩
    refine ⟨start.symm, ?_⟩
    rintro rfl
    exact Nat.lt_irrefl _ longer
  · rintro ⟨start, ne⟩
    refine ⟨?_, start.symm⟩
    by_contra short
    rw [List.take_of_length_le (Nat.le_of_not_lt short)] at start
    exact ne start.symm

/-- Keys that no sequence of the mode begins with are a miss. -/
theorem effect_resolve_of_miss {mode : String} {tokens : List String}
    (free : ∀ entry ∈ k.table mode, ¬tokens.map Token.normalize <+: entry.1) :
    effect (resolve mode tokens) k = (.ok .miss, k) := by
  have unbound : OrderedMap.get? (tokens.map Token.normalize) (k.table mode) = none := by
    rw [OrderedMap.get?_eq_none_iff]
    intro bound
    obtain ⟨entry, mem, same⟩ := List.mem_map.mp bound
    exact free entry mem ⟨[], by rw [same, List.append_nil]⟩
  have unstarted : ¬isStart (k.table mode) (tokens.map Token.normalize) = true := by
    rw [isStart_iff]
    rintro ⟨entry, mem, start, -⟩
    exact free entry mem start
  rw [resolve, effect_bind_of_ok (effect_get k)]
  dsimp only
  rw [effect_span, unbound]
  dsimp only
  rw [if_neg unstarted]
  rfl

theorem Coherent.isStart_table_iff (coherent : k.Coherent) {mode : String}
    {tokens : List String} :
    isStart (k.table mode) tokens = true ↔
      ∃ b ∈ k.bindingsOf (some mode), tokens <+: b.sequence.tokens ∧
        b.sequence.tokens ≠ tokens := by
  rw [isStart_iff]
  constructor
  · rintro ⟨⟨sequence, id⟩, mem, longer⟩
    obtain ⟨b, there, rfl, rfl⟩ := coherent.mem_table_iff.mp mem
    exact ⟨b, coherent.mem_bindingsOf_some_of_binding there, longer⟩
  · rintro ⟨b, mem, longer⟩
    obtain ⟨there, rfl⟩ := coherent.mem_bindingsOf_some.mp mem
    refine ⟨(b.sequence.tokens, b.id), ?_, longer⟩
    exact coherent.mem_table_iff.mpr ⟨b, binding_eq_ok_iff_stored.mpr there, rfl, rfl⟩

theorem Coherent.idAt_eq_none_iff (coherent : k.Coherent) {mode : String} {tokens : List String} :
    k.idAt mode tokens = none ↔
      ¬∃ b ∈ k.bindingsOf (some mode), b.sequence.tokens = tokens := by
  constructor
  · rintro free ⟨b, mem, rfl⟩
    obtain ⟨there, rfl⟩ := coherent.mem_bindingsOf_some.mp mem
    cases free.symm.trans (coherent.indexed there)
  · intro free
    rw [Option.eq_none_iff_forall_ne_some]
    intro id taken
    obtain ⟨b, there, mode, sequence⟩ := coherent.backed taken
    have name := coherent.named there
    exact free ⟨b, coherent.mem_bindingsOf_some.mpr ⟨name ▸ there, mode⟩, sequence⟩

/-- Keys are resolved without a fault and without a change. -/
theorem Coherent.exists_resolution (coherent : k.Coherent) (mode : String)
    (tokens : List String) :
    ∃ answer, effect (resolve mode tokens) k = (.ok answer, k) ∧
      k.Answers mode (tokens.map Token.normalize) answer := by
  generalize normal : tokens.map Token.normalize = sequence
  rw [resolve, effect_bind_of_ok (effect_get k)]
  dsimp only
  rw [effect_span, normal]
  cases taken : OrderedMap.get? sequence (k.table mode) with
  | some id =>
      obtain ⟨b, there, own, rfl⟩ := coherent.backed taken
      have name := coherent.named there
      have mem : b ∈ k.bindingsOf (some mode) :=
        coherent.mem_bindingsOf_some.mpr ⟨name ▸ there, own⟩
      have listed := coherent.mem_bindingsOf_none.mpr (name ▸ there)
      have known : k.binding id = .ok b := coherent.binding_eq_ok_iff.mpr ⟨listed, name⟩
      obtain ⟨a, action⟩ := coherent.exists_action listed
      refine ⟨.found b a b.sequence.tokens.length, ?_, ?_⟩
      · simp only [known, action, effect_bind, effect_ofExcept, effect_annotate, effect_pure]
      · constructor
        · exact iff_of_true ⟨b, a, _, rfl⟩ ⟨b, mem, rfl⟩
        · exact iff_of_false nofun fun free => free.1 ⟨b, mem, rfl⟩
        · exact iff_of_false nofun fun free => free ⟨b, mem, List.prefix_rfl⟩
        · rintro _ _ _ ⟨⟩
          exact ⟨mem, rfl, action, rfl⟩
        · exact nofun
  | none =>
      have free := coherent.idAt_eq_none_iff.mp taken
      dsimp only
      by_cases start : isStart (k.table mode) sequence = true
      · have longer := coherent.isStart_table_iff.mp start
        rw [if_pos start]
        refine ⟨.pending sequence.length, rfl, ?_⟩
        constructor
        · exact iff_of_false nofun free
        · exact iff_of_true ⟨_, rfl⟩ ⟨free, longer⟩
        · obtain ⟨b, mem, before, -⟩ := longer
          exact iff_of_false nofun fun none => none ⟨b, mem, before⟩
        · exact nofun
        · rintro _ ⟨⟩
          rfl
      · have none := mt coherent.isStart_table_iff.mpr start
        rw [if_neg start]
        refine ⟨.miss, rfl, ?_⟩
        constructor
        · exact iff_of_false nofun free
        · exact iff_of_false nofun fun longer => none longer.2
        · refine iff_of_true rfl ?_
          rintro ⟨b, mem, before⟩
          exact none ⟨b, mem, before, fun same => free ⟨b, mem, same⟩⟩
        · exact nofun
        · exact nofun

/-- A binding that is there is found by its keys, however they are spelled. -/
theorem Coherent.effect_resolve_of_mem (coherent : k.Coherent) {tokens : List String}
    {a : Action η} (mem : b ∈ k.bindingsOf (some b.mode)) (known : k.action b.action = .ok a)
    (spelled : tokens.map Token.normalize = b.sequence.tokens) :
    effect (resolve b.mode tokens) k = (.ok (.found b a tokens.length), k) := by
  obtain ⟨answer, resolved, answers⟩ := coherent.exists_resolution b.mode tokens
  obtain ⟨other, act, used, rfl⟩ := answers.found.mpr ⟨b, mem, spelled.symm⟩
  obtain ⟨listed, sequence, action, rfl⟩ := answers.own other act used rfl
  obtain rfl := coherent.eq_of_tokens mem listed (sequence.trans spelled)
  cases action.symm.trans known
  rw [resolved, List.length_map]

end Resolving

end LinkerScriptEditor.Keymap
