import LinkerScriptEditor.Proofs.Keymap.Answers

/-!
# What a keymap goes through

Whatever calls are made on a keymap that begins empty, it stays coherent, and a call that fails has
changed nothing. So conflicts can always be told, keys are always resolved, and a binding that is
accepted takes the place of just those that clash with it.
-/

namespace LinkerScriptEditor.Keymap

open Traced

variable {η : Type} {k : Keymap η} {b : Binding}

/-- The calls that are made on a keymap. -/
inductive Call (η : Type)
  | registerAction (action : Action η) (replace : Bool)
  | registerBinding (binding : Binding) (replace : Bool)
  | unregisterBinding (id : String)
  | detectConflicts (binding : Binding)
  | resolve (mode : String) (tokens : List String)

def Call.perform : Call η → Traced (Keymap η) Unit
  | .registerAction a replace => Keymap.registerAction a replace
  | .registerBinding b replace => Keymap.registerBinding b replace
  | .unregisterBinding id => modify fun k => (Keymap.unregisterBinding id k).2
  | .detectConflicts b => do
    let k ← get
    discard (Traced.ofExcept (k.detectConflicts b))
  | .resolve mode tokens => discard (Keymap.resolve mode tokens)

/-- The keymap after some calls, of which any may have failed. -/
def after (k : Keymap η) (calls : List (Call η)) : Keymap η :=
  calls.foldl (fun k call => (effect call.perform k).2) k

theorem effect_registerAction (a : Action η) (replace : Bool) (k : Keymap η) :
    effect (registerAction a replace) k =
      if !replace && (OrderedMap.get? a.id k.actions).isSome then (.error (.actionTaken a.id), k)
      else (.ok (), k.putAction a) := by
  rw [registerAction, effect_bind_of_ok (effect_get k), effect_within]
  split <;> rfl

/-- A binding is refused for the first of three reasons, and nothing has changed, or it is put in.
-/
theorem effect_registerBinding {others : List Binding} (replace : Bool)
    (conflicts : k.detectConflicts b = .ok others) :
    effect (registerBinding b replace) k =
      if (OrderedMap.get? b.action k.actions).isNone then
        (.error (.danglingBinding b.id b.action), k)
      else if !replace && !others.isEmpty then
        (.error (.conflict b.id (others.map Binding.id)), k)
      else if !replace && (OrderedMap.get? b.id k.bindings).isSome then
        (.error (.bindingTaken b.id), k)
      else (.ok (), k.putBinding b others) := by
  rw [registerBinding, effect_bind_of_ok (effect_get k)]
  dsimp only
  rw [effect_span, conflicts]
  split
  · rfl
  · rw [effect_bind_of_ok (effect_ofExcept _ _)]
    split
    · rfl
    · split <;> rfl

/-- What comes of the registration of a binding: it goes well if the action is there and nothing
clashes that may not be replaced, and then it takes the place of all that clash with it. -/
structure Registers (k : Keymap η) (b : Binding) (replace : Bool)
    (result : Except Fault Unit × Keymap η) : Prop where
  accepted : result.1 = .ok () ↔ (∃ a, k.action b.action = .ok a) ∧
    (replace = true ∨ ∀ other ∈ k.bindingsOf none, ¬other.Clashes b)
  stored : result.1 = .ok () → ∀ other, other ∈ result.2.bindingsOf none ↔
    other = b ∨ other ∈ k.bindingsOf none ∧ ¬other.Clashes b

theorem exists_action_iff {id : String} :
    (∃ a, k.action id = .ok a) ↔ ¬(OrderedMap.get? id k.actions).isNone = true := by
  rw [action]
  cases OrderedMap.get? id k.actions with
  | none => simp
  | some a => simp

/-- Nothing clashes with a binding just if its sequence and its name are both free. -/
theorem Coherent.free_iff (coherent : k.Coherent) {others : List Binding}
    (conflicts : k.detectConflicts b = .ok others) :
    (∀ other ∈ k.bindingsOf none, ¬other.Clashes b) ↔ others = [] ∧ k.stored b.id = none := by
  constructor
  · intro free
    constructor
    · rw [List.eq_nil_iff_forall_not_mem]
      intro other conflicting
      obtain ⟨there, -, own⟩ := (coherent.mem_conflicts conflicts).mp conflicting
      exact free other (coherent.mem_bindingsOf_none.mpr there) (.inr own)
    · rw [Option.eq_none_iff_forall_ne_some]
      intro c there
      have name := coherent.named there
      exact free c (coherent.mem_bindingsOf_none.mpr (name ▸ there)) (.inl name)
  · rintro ⟨rfl, fresh⟩ other listed clash
    have there := coherent.mem_bindingsOf_none.mp listed
    by_cases name : other.id = b.id
    · cases fresh.symm.trans (name ▸ there)
    · cases (coherent.mem_conflicts conflicts).mpr ⟨there, name, clash.resolve_left name⟩

theorem Coherent.registers (coherent : k.Coherent) (b : Binding) (replace : Bool) :
    k.Registers b replace (effect (registerBinding b replace) k) := by
  obtain ⟨others, found, -⟩ := coherent.exists_conflicts b
  have refusal : ((!replace && !others.isEmpty) = true ∨
      (!replace && (OrderedMap.get? b.id k.bindings).isSome) = true) ↔
      ¬(replace = true ∨ ∀ other ∈ k.bindingsOf none, ¬other.Clashes b) := by
    rw [coherent.free_iff found, Keymap.stored]
    cases replace with
    | true => simp
    | false => simp [Option.isSome_iff_ne_none, imp_iff_not_or]
  rw [effect_registerBinding replace found]
  split
  · next absent =>
      refine ⟨iff_of_false error_ne_ok ?_, fun done => absurd done error_ne_ok⟩
      exact fun ok => exists_action_iff.mp ok.1 absent
  · next present =>
      have acts := Option.isNone_eq_false_iff.mp (Bool.eq_false_iff.mpr present)
      split
      · next taken =>
          refine ⟨iff_of_false error_ne_ok ?_, fun done => absurd done error_ne_ok⟩
          exact fun ok => refusal.mp (.inl taken) ok.2
      · next untaken =>
          split
          · next named =>
              refine ⟨iff_of_false error_ne_ok ?_, fun done => absurd done error_ne_ok⟩
              exact fun ok => refusal.mp (.inr named) ok.2
          · next unnamed =>
              have allowed := not_not.mp (mt refusal.mpr (not_or.mpr ⟨untaken, unnamed⟩))
              have next := coherent.putBinding found acts
              refine ⟨iff_of_true rfl ⟨exists_action_iff.mpr present, allowed⟩, fun _ other => ?_⟩
              rw [next.mem_bindingsOf_none, coherent.mem_bindingsOf_none]
              exact coherent.stored_putBinding found

/-- All that a call can come to: it is refused, or it leaves the keymap as it is, puts an action or
a binding in, or takes a binding out. -/
inductive Performed (k : Keymap η) : Except Fault Unit × Keymap η → Prop
  | refused (fault : Fault) : Performed k (.error fault, k)
  | kept : Performed k (.ok (), k)
  | acted (a : Action η) : Performed k (.ok (), k.putAction a)
  | bound {b : Binding} {others : List Binding} (conflicts : k.detectConflicts b = .ok others)
      (acts : (OrderedMap.get? b.action k.actions).isSome) :
      Performed k (.ok (), k.putBinding b others)
  | dropped {b : Binding} (there : k.stored b.id = some b) : Performed k (.ok (), k.drop b)

theorem Coherent.performed (coherent : k.Coherent) (call : Call η) :
    k.Performed (effect call.perform k) := by
  cases call with
  | registerAction a replace =>
      rw [Call.perform, effect_registerAction]
      split
      · exact .refused _
      · exact .acted a
  | registerBinding b replace =>
      obtain ⟨others, found, -⟩ := coherent.exists_conflicts b
      rw [Call.perform, effect_registerBinding replace found]
      split
      · exact .refused _
      · next present =>
          have acts := Option.isNone_eq_false_iff.mp (Bool.eq_false_iff.mpr present)
          split
          · exact .refused _
          · split
            · exact .refused _
            · exact .bound found acts
  | unregisterBinding id =>
      rw [Call.perform, effect_modify, Keymap.unregisterBinding]
      cases found : OrderedMap.get? id k.bindings with
      | none => exact .kept
      | some b => exact .dropped ((coherent.named found).symm ▸ found)
  | detectConflicts b =>
      obtain ⟨others, found, -⟩ := coherent.exists_conflicts b
      rw [Call.perform, effect_bind_of_ok (effect_get k), effect_discard, effect_ofExcept, found]
      exact .kept
  | resolve mode tokens =>
      obtain ⟨answer, resolved, -⟩ := coherent.exists_resolution mode tokens
      rw [Call.perform, effect_discard, resolved]
      exact .kept

/-- A call keeps a keymap coherent, and a call that fails has changed nothing. -/
theorem Coherent.perform (coherent : k.Coherent) (call : Call η) :
    (effect call.perform k).2.Coherent ∧
      ∀ fault, (effect call.perform k).1 = .error fault → (effect call.perform k).2 = k := by
  have performed := coherent.performed call
  generalize effect call.perform k = ran at performed ⊢
  cases performed with
  | refused fault => exact ⟨coherent, fun _ _ => rfl⟩
  | kept => exact ⟨coherent, nofun⟩
  | acted a => exact ⟨coherent.putAction a, nofun⟩
  | bound conflicts acts => exact ⟨coherent.putBinding conflicts acts, nofun⟩
  | dropped there =>
      exact ⟨coherent.drop fun c found => Option.some.inj (found.symm.trans there), nofun⟩

theorem Coherent.after (coherent : k.Coherent) (calls : List (Call η)) :
    (k.after calls).Coherent := by
  induction calls generalizing k with
  | nil => exact coherent
  | cons call calls ih => exact ih (coherent.perform call).1

/-- Whatever calls a keymap has gone through, its tables and its bindings are inverse to each
other, no two bindings clash and every action is there. A further call that fails changes nothing,
a binding is refused for a clash or a missing action only, conflicts can be told, and keys come to
what the stored bindings make of them. -/
theorem registry_after_calls (logger : String) (calls : List (Call η)) :
    let k : Keymap η := (empty logger).after calls
    (∀ mode tokens id, (tokens, id) ∈ k.table mode ↔
      ∃ b, k.binding id = .ok b ∧ b.mode = mode ∧ b.sequence.tokens = tokens) ∧
    (∀ id b, k.binding id = .ok b ↔ b ∈ k.bindingsOf none ∧ b.id = id) ∧
    ((k.bindingsOf none).Pairwise fun a b => ¬a.Clashes b) ∧
    (∀ b ∈ k.bindingsOf none, ∃ a, k.action b.action = .ok a) ∧
    (∀ (call : Call η) fault, (effect call.perform k).1 = .error fault →
      (effect call.perform k).2 = k) ∧
    (∀ b replace, k.Registers b replace (effect (registerBinding b replace) k)) ∧
    (∀ b, ∃ others, k.detectConflicts b = .ok others ∧ ∀ other, other ∈ others ↔
      other ∈ k.bindingsOf none ∧ other.id ≠ b.id ∧ other.mode = b.mode ∧
        other.sequence.tokens = b.sequence.tokens) ∧
    ∀ mode tokens, ∃ answer, effect (resolve mode tokens) k = (.ok answer, k) ∧
      k.Answers mode (tokens.map Token.normalize) answer := by
  intro k
  have coherent : k.Coherent := (coherent_empty logger).after calls
  refine ⟨?_, ?_, coherent.pairwise_bindings, ?_, ?_, coherent.registers, ?_, ?_⟩
  · exact fun mode tokens id => coherent.mem_table_iff
  · exact fun id b => coherent.binding_eq_ok_iff
  · exact fun b mem => coherent.exists_action mem
  · exact fun call => (coherent.perform call).2
  · intro b
    obtain ⟨others, found, mem⟩ := coherent.exists_conflicts b
    exact ⟨others, found, fun other => by rw [mem, coherent.mem_bindingsOf_none]⟩
  · exact coherent.exists_resolution

/-- A binding may replace two at once: the one with its sequence and, from another mode, the one
with its name. -/
example :
    let k : Keymap Unit := (empty "").after [.registerAction ⟨"act", (), none⟩ false,
      .registerBinding ⟨"one", "m", ⟨["A"]⟩, "act", none⟩ false,
      .registerBinding ⟨"two", "n", ⟨["B"]⟩, "act", none⟩ false,
      .registerBinding ⟨"two", "m", ⟨["A"]⟩, "act", none⟩ true]
    k.bindingsOf none = [⟨"two", "m", ⟨["A"]⟩, "act", none⟩] ∧
      k.tables = [("m", [(["A"], "two")]), ("n", [])] := by decide

end LinkerScriptEditor.Keymap
