import LinkerScriptEditor.Proofs.Keymap.Calls
import LinkerScriptEditor.Proofs.Log.Zoom

/-!
# Installing bindings

Bindings are put into a keymap one by one, and the first one that is refused ends it. All of them go
in just if each of them finds its action and none clashes with another or with one that was there
before. Otherwise those in front of the first refused one stay.
-/

namespace LinkerScriptEditor.Keymap

open Traced

variable {η : Type} {k : Keymap η} {b : Binding} {bindings before rest : List Binding}

def putActions (actions : List (Action η)) (k : Keymap η) : Keymap η :=
  actions.foldl (fun k a => k.putAction a) k

def insertAll (bindings : List Binding) (k : Keymap η) : Keymap η :=
  bindings.foldl (fun k b => k.insert b) k

/-- There is room for the bindings: each finds its action, and none clashes with another of them or
with one that is there. -/
structure Accepts (k : Keymap η) (bindings : List Binding) : Prop where
  acting : ∀ b ∈ bindings, ∃ a, k.action b.action = .ok a
  distinct : bindings.Pairwise fun a b => ¬a.Clashes b
  free : ∀ b ∈ bindings, ∀ other ∈ k.bindingsOf none, ¬other.Clashes b

theorem accepts_nil : k.Accepts [] := ⟨nofun, .nil, nofun⟩

theorem accepts_singleton : k.Accepts [b] ↔
    (∃ a, k.action b.action = .ok a) ∧ ∀ other ∈ k.bindingsOf none, ¬other.Clashes b := by
  constructor
  · intro accepts
    exact ⟨accepts.acting b List.mem_cons_self, accepts.free b List.mem_cons_self⟩
  · rintro ⟨acting, free⟩
    constructor
    · simpa using acting
    · exact List.pairwise_singleton _ b
    · simpa using free

theorem bindingsOf_none (k : Keymap η) : k.bindingsOf none = OrderedMap.values k.bindings :=
  List.filter_eq_self.mpr fun _ _ => rfl

theorem bindingsOf_insert (fresh : k.stored b.id = none) :
    (k.insert b).bindingsOf none = k.bindingsOf none ++ [b] := by
  have appended : (k.insert b).bindings = k.bindings ++ [(b.id, b)] :=
    OrderedMap.put_of_get?_eq_none fresh
  simp [bindingsOf_none, OrderedMap.values, appended]

theorem Coherent.stored_eq_none (coherent : k.Coherent) (accepts : k.Accepts [b]) :
    k.stored b.id = none := by
  obtain ⟨others, found, -⟩ := coherent.exists_conflicts b
  exact ((coherent.free_iff found).mp (accepts_singleton.mp accepts).2).2

/-- A binding that is accepted leaves to the others what it does not take itself. -/
theorem Coherent.accepts_cons_iff (coherent : k.Coherent) :
    k.Accepts (b :: rest) ↔ k.Accepts [b] ∧ (k.insert b).Accepts rest := by
  constructor
  · rintro ⟨acting, distinct, free⟩
    obtain ⟨clear, distinct⟩ := List.pairwise_cons.mp distinct
    have one : k.Accepts [b] :=
      accepts_singleton.mpr ⟨acting b List.mem_cons_self, free b List.mem_cons_self⟩
    refine ⟨one, fun c mem => acting c (List.mem_cons_of_mem b mem), distinct, ?_⟩
    intro c mem other there
    rw [bindingsOf_insert (coherent.stored_eq_none one), List.mem_append,
      List.mem_singleton] at there
    rcases there with old | rfl
    · exact free c (List.mem_cons_of_mem b mem) other old
    · exact clear c mem
  · rintro ⟨one, acting, distinct, free⟩
    have fresh := coherent.stored_eq_none one
    obtain ⟨acts, clear⟩ := accepts_singleton.mp one
    simp only [bindingsOf_insert fresh, List.mem_append, List.mem_singleton] at free
    constructor
    · exact List.forall_mem_cons.mpr ⟨acts, acting⟩
    · exact List.pairwise_cons.mpr ⟨fun c mem => free c mem b (.inr rfl), distinct⟩
    · exact List.forall_mem_cons.mpr ⟨clear, fun c mem other old => free c mem other (.inl old)⟩

theorem Coherent.insert_of_accepts (coherent : k.Coherent) (accepts : k.Accepts [b]) :
    (k.insert b).Coherent := by
  obtain ⟨⟨a, acts⟩, clear⟩ := accepts_singleton.mp accepts
  apply coherent.insert (coherent.stored_eq_none accepts)
  · rw [coherent.idAt_eq_none_iff]
    rintro ⟨other, mem, tokens⟩
    obtain ⟨there, mode⟩ := coherent.mem_bindingsOf_some.mp mem
    exact clear other (coherent.mem_bindingsOf_none.mpr there) (.inr ⟨mode, tokens⟩)
  · exact Option.isNone_eq_false_iff.mp (Bool.eq_false_iff.mpr (exists_action_iff.mp ⟨a, acts⟩))

theorem Coherent.accepts_append_iff (coherent : k.Coherent) :
    k.Accepts (before ++ rest) ↔ k.Accepts before ∧ (k.insertAll before).Accepts rest := by
  induction before generalizing k with
  | nil => exact (and_iff_right accepts_nil).symm
  | cons b before ih =>
      have first : k.Accepts (b :: before) ↔ k.Accepts [b] ∧ (k.insert b).Accepts before :=
        coherent.accepts_cons_iff
      rw [List.cons_append, coherent.accepts_cons_iff, first, and_assoc]
      refine and_congr_right fun one => ?_
      exact ih (coherent.insert_of_accepts one)

/-- What is accepted goes behind what is there, and the keymap stays coherent. -/
theorem Coherent.insertAll (coherent : k.Coherent) (accepts : k.Accepts bindings) :
    (k.insertAll bindings).Coherent ∧
      (k.insertAll bindings).bindingsOf none = k.bindingsOf none ++ bindings := by
  induction bindings generalizing k with
  | nil => exact ⟨coherent, (List.append_nil _).symm⟩
  | cons b rest ih =>
      obtain ⟨one, others⟩ := coherent.accepts_cons_iff.mp accepts
      obtain ⟨stays, listed⟩ := ih (coherent.insert_of_accepts one) others
      refine ⟨stays, listed.trans ?_⟩
      rw [bindingsOf_insert (coherent.stored_eq_none one), List.append_assoc, List.singleton_append]

theorem Coherent.putActions (coherent : k.Coherent) (actions : List (Action η)) :
    (k.putActions actions).Coherent := by
  induction actions generalizing k with
  | nil => exact coherent
  | cons a rest ih => exact ih (coherent.putAction a)

theorem actions_putActions (actions : List (Action η)) (k : Keymap η) :
    (k.putActions actions).actions =
      OrderedMap.putAll k.actions (actions.map fun a => (a.id, a)) := by
  induction actions generalizing k with
  | nil => rfl
  | cons a rest ih => exact ih (k.putAction a)

theorem actions_insertAll (bindings : List Binding) (k : Keymap η) :
    (k.insertAll bindings).actions = k.actions := by
  induction bindings generalizing k with
  | nil => rfl
  | cons b rest ih => exact ih (k.insert b)

theorem bindingsOf_putActions (actions : List (Action η)) (k : Keymap η) :
    (k.putActions actions).bindingsOf none = k.bindingsOf none := by
  induction actions generalizing k with
  | nil => rfl
  | cons a rest ih => exact ih (k.putAction a)

theorem Coherent.effect_registerBinding_of_accepts (coherent : k.Coherent)
    (accepts : k.Accepts [b]) :
    effect (registerBinding b false) k = (.ok (), k.insert b) := by
  obtain ⟨others, found, -⟩ := coherent.exists_conflicts b
  obtain ⟨acting, clear⟩ := accepts_singleton.mp accepts
  obtain ⟨rfl, fresh⟩ := (coherent.free_iff found).mp clear
  rw [stored] at fresh
  have put : k.putBinding b [] = k.insert b := by
    rw [Keymap.putBinding, fresh]
    rfl
  rw [effect_registerBinding false found, if_neg (exists_action_iff.mp acting), put]
  simp [fresh]

/-- What installing bindings comes to: all are in, or those in front of one that is refused by the
keymap that has them. -/
inductive Installs (k : Keymap η) : List Binding → Except Fault PUnit × Keymap η → Prop
  | all {bindings : List Binding} (accepted : k.Accepts bindings) :
      Installs k bindings (.ok PUnit.unit, k.insertAll bindings)
  | upTo {before rest : List Binding} {refused : Binding} {fault : Fault}
      (accepted : k.Accepts before)
      (refusal : effect (registerBinding refused false) (k.insertAll before) =
        (.error fault, k.insertAll before)) :
      Installs k (before ++ refused :: rest) (.error fault, k.insertAll before)

theorem Coherent.effect_registerBinding_cases (coherent : k.Coherent) (b : Binding) :
    k.Accepts [b] ∧ effect (registerBinding b false) k = (.ok (), k.insert b) ∨
      ∃ fault, effect (registerBinding b false) k = (.error fault, k) := by
  by_cases accepts : k.Accepts [b]
  · exact .inl ⟨accepts, coherent.effect_registerBinding_of_accepts accepts⟩
  · right
    have registers := coherent.registers b false
    have unchanged := (coherent.perform (.registerBinding b false)).2
    rw [Call.perform] at unchanged
    rcases ran : effect (registerBinding b false) k with ⟨fault | done, after⟩
    · rw [ran] at unchanged
      obtain rfl : after = k := unchanged fault rfl
      exact ⟨fault, rfl⟩
    · rw [ran] at registers
      obtain ⟨acting, clear⟩ := registers.accepted.mp rfl
      exact absurd (accepts_singleton.mpr ⟨acting, clear.resolve_left Bool.false_ne_true⟩) accepts

theorem Coherent.installs (coherent : k.Coherent) (bindings : List Binding) :
    k.Installs bindings (effect (forIn bindings PUnit.unit fun b _ => do
      registerBinding b false
      Pure.pure (ForInStep.yield PUnit.unit)) k) := by
  induction bindings generalizing k with
  | nil => exact .all accepts_nil
  | cons b rest ih =>
      rw [effect_forIn_cons]
      rcases coherent.effect_registerBinding_cases b with ⟨one, done⟩ | ⟨fault, refused⟩
      · have others := ih (coherent.insert_of_accepts one)
        rw [effect_bind_of_ok done]
        generalize effect (forIn rest PUnit.unit _) (k.insert b) = ran at others ⊢
        cases others with
        | all accepted => exact .all (coherent.accepts_cons_iff.mpr ⟨one, accepted⟩)
        | @upTo before rest refused fault accepted refusal =>
            have front := coherent.accepts_cons_iff.mpr ⟨one, accepted⟩
            have installs : k.Installs ((b :: before) ++ refused :: rest) _ := .upTo front refusal
            exact installs
      · rw [effect_bind_of_error refused]
        have installs : k.Installs ([] ++ b :: rest) _ := .upTo accepts_nil refused
        exact installs

theorem Installs.ok_iff (coherent : k.Coherent) {ran : Except Fault PUnit × Keymap η}
    (installs : k.Installs bindings ran) : ran.1 = .ok PUnit.unit ↔ k.Accepts bindings := by
  cases installs with
  | all accepted => exact iff_of_true rfl accepted
  | @upTo before rest refused fault accepted refusal =>
      refine iff_of_false nofun fun accepts => ?_
      have coming := (coherent.accepts_append_iff.mp accepts).2
      obtain ⟨stays, -⟩ := coherent.insertAll accepted
      have one := (stays.accepts_cons_iff.mp coming).1
      rw [stays.effect_registerBinding_of_accepts one] at refusal
      cases refusal

theorem effect_registerActions (actions : List (Action η)) (k : Keymap η) :
    effect (forIn actions PUnit.unit fun a _ => do
      registerAction a true
      Pure.pure (ForInStep.yield PUnit.unit)) k = (.ok PUnit.unit, k.putActions actions) := by
  induction actions generalizing k with
  | nil => rfl
  | cons a rest ih =>
      rw [effect_forIn_cons, effect_bind, effect_registerAction]
      exact ih (k.putAction a)

theorem actions_putBinding (b : Binding) (others : List Binding) (k : Keymap η) :
    (k.putBinding b others).actions = k.actions := by
  have drops : ∀ (stale : List Binding) (k : Keymap η),
      (stale.foldl (fun k old => k.drop old) k).actions = k.actions := by
    intro stale
    induction stale with
    | nil => exact fun k => rfl
    | cons old rest ih => exact fun k => ih (k.drop old)
  exact drops _ k

theorem actions_registerBinding (b : Binding) (k : Keymap η) :
    (effect (registerBinding b false) k).2.actions = k.actions := by
  cases conflicts : k.detectConflicts b with
  | error fault =>
      rw [registerBinding, effect_bind_of_ok (effect_get k)]
      dsimp only
      rw [effect_span, conflicts]
      split <;> rfl
  | ok others =>
      rw [effect_registerBinding false conflicts]
      split
      · rfl
      · split
        · rfl
        · split
          · rfl
          · exact actions_putBinding b others k

/-- Bindings do not change what actions there are. -/
theorem actions_registerBindings (bindings : List Binding) (k : Keymap η) :
    (effect (forIn bindings PUnit.unit fun b _ => do
      registerBinding b false
      Pure.pure (ForInStep.yield PUnit.unit)) k).2.actions = k.actions := by
  induction bindings generalizing k with
  | nil => rfl
  | cons b rest ih =>
      have first := actions_registerBinding b k
      rw [effect_forIn_cons, effect_bind]
      rcases ran : effect (registerBinding b false) k with ⟨fault | done, next⟩
      · rw [ran] at first
        exact first
      · rw [ran] at first
        exact (ih next).trans first

theorem mem_actions_putActions {entry : String × Action η} (actions : List (Action η))
    (mem : entry ∈ (k.putActions actions).actions) :
    entry.2 ∈ actions ∨ entry ∈ k.actions := by
  induction actions generalizing k with
  | nil => exact .inr mem
  | cons a rest ih =>
      rcases ih mem with later | put
      · exact .inl (List.mem_cons_of_mem a later)
      · rcases OrderedMap.mem_put put with rfl | before
        · exact .inl List.mem_cons_self
        · exact .inr before

end LinkerScriptEditor.Keymap
