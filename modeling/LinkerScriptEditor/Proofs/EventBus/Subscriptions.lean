import LinkerScriptEditor.EventBus
import Mathlib.Data.List.Induction

/-!
# Subscriptions and their detachment

Detaching a subscription is meant to take away just that subscription, once. The bus keeps bare
listeners, though, and takes away the earliest equal one. So twins, subscriptions of one listener to
one event, are mixed up: what is left of a listener is always the number of its subscriptions less
that of its detachments, but a repeated detachment takes a twin away, and a later twin leaves in the
place of an earlier one. Everybody else is kept, in order.

Calls are taken in the order in which they begin. An emission tells those who are subscribed when it
begins, so calls that listeners make while they are being told come after it.
-/

namespace LinkerScriptEditor.EventBus

variable {κ : Type}

/-- A call on a bus. A detachment names its subscription by the number of those made before. -/
inductive Call (κ : Type)
  | subscribe (event : String) (listener : κ)
  | detach (number : Nat)
  | emit (event : String) (payload : Datum)

/-- A bus in use, with the subscriptions that were made, of which each can be detached at any time,
and whom each emission told. -/
structure Usage (κ : Type) where
  bus : EventBus κ
  made : List (String × κ)
  told : List (Datum × List κ)

/-- A subscription with an identity of its own. -/
structure Subscription (κ : Type) where
  number : Nat
  event : String
  listener : κ

/-- A bus as it is meant to be: it knows which subscriptions stand. -/
structure Ledger (κ : Type) where
  made : List (String × κ)
  standing : List (Subscription κ)
  told : List (Datum × List κ)

/-- Whether a listener is subscribed to an event no more than once. -/
def Once (event : String) (listener : κ) (made : List (String × κ)) : Prop :=
  ∀ i j : Nat, made[i]? = some (event, listener) → made[j]? = some (event, listener) → i = j

theorem Once.of_append {made more : List (String × κ)} {event : String} {listener : κ}
    (once : Once event listener (made ++ more)) : Once event listener made := by
  intro i j first second
  obtain ⟨within, -⟩ := List.getElem?_eq_some_iff.mp first
  obtain ⟨within', -⟩ := List.getElem?_eq_some_iff.mp second
  apply once i j
  · rw [List.getElem?_append_left within, first]
  · rw [List.getElem?_append_left within', second]

namespace Ledger

def empty : Ledger κ := ⟨[], [], []⟩

def standingFor (event : String) (l : Ledger κ) : List (Subscription κ) :=
  l.standing.filter fun s => s.event = event

def listeners (event : String) (l : Ledger κ) : List κ :=
  (l.standingFor event).map Subscription.listener

/-- Detaching takes away the subscription of that number, if it still stands. -/
def step (l : Ledger κ) : Call κ → Ledger κ
  | .subscribe event listener =>
    { l with
      made := l.made ++ [(event, listener)]
      standing := l.standing ++ [⟨l.made.length, event, listener⟩] }
  | .detach number => { l with standing := l.standing.filter fun s => s.number ≠ number }
  | .emit event payload => { l with told := l.told ++ [(payload, l.listeners event)] }

def after (calls : List (Call κ)) : Ledger κ := calls.foldl step empty

/-- Numbers grow from one subscription to the next, and lead to what was subscribed. -/
structure Sound (l : Ledger κ) : Prop where
  ordered : l.standing.Pairwise fun s t => s.number < t.number
  known : ∀ s ∈ l.standing, l.made[s.number]? = some (s.event, s.listener)

/-- Whether a detachment does no harm when the earliest twin goes in its place. If the subscription
stands, nobody else may have a place between its earliest twin and itself; if it is gone, no twin of
it may be left. -/
def Harmless (number : Nat) (l : Ledger κ) : Prop :=
  ∀ event listener, l.made[number]? = some (event, listener) →
    if ∃ s ∈ l.standing, s.number = number then
      ∀ s ∈ l.standingFor event, ∀ t ∈ l.standingFor event, s.listener = listener →
        s.number ≤ t.number → t.number ≤ number → t.listener = listener
    else listener ∉ l.listeners event

variable {l : Ledger κ} {number : Nat} {event other : String} {listener : κ}

theorem after_concat (calls : List (Call κ)) (call : Call κ) :
    after (calls ++ [call]) = (after calls).step call := by
  rw [after, List.foldl_append]
  rfl

theorem Sound.step (sound : l.Sound) (call : Call κ) : (l.step call).Sound := by
  cases call with
  | subscribe event listener =>
      have small : ∀ s ∈ l.standing, s.number < l.made.length := by
        intro s standing
        exact (List.getElem?_eq_some_iff.mp (sound.known s standing)).1
      refine ⟨?_, ?_⟩
      · simp only [Ledger.step, List.pairwise_append]
        exact ⟨sound.ordered, List.pairwise_singleton _ _, by simpa using small⟩
      · intro s standing
        simp only [Ledger.step, List.mem_append, List.mem_singleton] at standing ⊢
        rcases standing with standing | rfl
        · rw [List.getElem?_append_left (small s standing)]
          exact sound.known s standing
        · simp
  | detach number =>
      refine ⟨sound.ordered.filter _, ?_⟩
      intro s standing
      exact sound.known s (List.mem_filter.mp standing).1
  | emit event payload => exact ⟨sound.ordered, sound.known⟩

theorem sound_after (calls : List (Call κ)) : (after calls).Sound := by
  induction calls using List.reverseRecOn with
  | nil => exact ⟨.nil, nofun⟩
  | append_singleton calls call ih =>
      rw [after_concat]
      exact ih.step call

theorem Sound.entry_of_mem (sound : l.Sound) {s : Subscription κ} (mem : s ∈ l.standingFor event) :
    l.made[s.number]? = some (event, s.listener) := by
  obtain ⟨standing, at_event⟩ := List.mem_filter.mp mem
  rw [sound.known s standing, of_decide_eq_true at_event]

theorem listeners_subscribe (e event : String) (k : κ) (l : Ledger κ) :
    (l.step (.subscribe e k)).listeners event =
      if e = event then l.listeners e ++ [k] else l.listeners event := by
  simp only [listeners, standingFor, step, List.filter_append, List.map_append]
  split
  · rename_i same
    simp [same]
  · rename_i differs
    simp [differs]

theorem listeners_detach (number : Nat) (event : String) (l : Ledger κ) :
    (l.step (.detach number)).listeners event =
      ((l.standingFor event).filter fun s => s.number ≠ number).map Subscription.listener := by
  simp only [listeners, standingFor, step, List.filter_filter, Bool.and_comm]

/-- Detaching makes no difference to an event unless the subscription stands for it. -/
theorem listeners_detach_of_absent (absent : ∀ s ∈ l.standingFor event, s.number ≠ number) :
    (l.step (.detach number)).listeners event = l.listeners event := by
  rw [listeners_detach, List.filter_eq_self.mpr (by simpa using absent), listeners]

theorem Sound.listeners_detach_of_none (sound : l.Sound) (entry : l.made[number]? = none)
    (event : String) : (l.step (.detach number)).listeners event = l.listeners event := by
  apply listeners_detach_of_absent
  rintro s mem rfl
  rw [sound.entry_of_mem mem] at entry
  cases entry

theorem Sound.listeners_detach_of_other (sound : l.Sound)
    (entry : l.made[number]? = some (event, listener)) (differs : event ≠ other) :
    (l.step (.detach number)).listeners other = l.listeners other := by
  apply listeners_detach_of_absent
  rintro s mem rfl
  have same := (sound.entry_of_mem mem).symm.trans entry
  exact differs (Prod.mk.inj (Option.some.inj same)).1.symm

/-- Those who are not the listener stay when one of its subscriptions is detached. -/
theorem Sound.filter_listeners_detach (sound : l.Sound)
    (entry : l.made[number]? = some (event, listener)) {group : κ → Bool}
    (outside : ¬group listener) :
    ((l.step (.detach number)).listeners event).filter group =
      (l.listeners event).filter group := by
  rw [listeners_detach, listeners, List.filter_map, List.filter_map, List.filter_filter]
  congr 1
  apply List.filter_congr
  intro s mem
  by_cases same : s.number = number
  · have known := (sound.entry_of_mem mem).symm.trans (same ▸ entry)
    have twin : s.listener = listener := (Prod.mk.inj (Option.some.inj known)).2
    simp [twin, outside]
  · simp [same]

/-- A subscription without twins is detached without harm. -/
theorem Sound.harmless_of_once (sound : l.Sound)
    (entry : l.made[number]? = some (event, listener)) (once : Once event listener l.made) :
    l.Harmless number := by
  have own : ∀ s ∈ l.standingFor event, s.listener = listener → s.number = number := by
    rintro s mem rfl
    exact once _ _ (sound.entry_of_mem mem) entry
  intro e k named
  obtain ⟨rfl, rfl⟩ := Prod.mk.inj (Option.some.inj (named.symm.trans entry))
  split
  · intro s smem t tmem twin order within
    have same : t.number = number := by
      have := own s smem twin
      omega
    have known := (sound.entry_of_mem tmem).symm.trans (same ▸ entry)
    exact (Prod.mk.inj (Option.some.inj known)).2
  · rename_i gone
    intro mem
    obtain ⟨s, smem, twin⟩ := List.mem_map.mp mem
    exact gone ⟨s, (List.mem_filter.mp smem).1, own s smem twin⟩

end Ledger

section Erasing

variable {subscriptions : List (Subscription κ)} {own : Subscription κ}

theorem filter_number_of_lt (later : ∀ t ∈ subscriptions, own.number < t.number) :
    (subscriptions.filter fun t => t.number ≠ own.number) = subscriptions := by
  rw [List.filter_eq_self]
  intro t mem
  exact decide_eq_true (Nat.ne_of_gt (later t mem))

/-- Taking a subscription away comes to the same as taking the first one away if everybody up to
the subscription is the same listener. -/
theorem map_eq_cons_filter_iff
    (ordered : subscriptions.Pairwise fun s t => s.number < t.number) (mem : own ∈ subscriptions) :
    subscriptions.map Subscription.listener =
        own.listener :: (subscriptions.filter fun t => t.number ≠ own.number).map
          Subscription.listener ↔
      ∀ t ∈ subscriptions, t.number ≤ own.number → t.listener = own.listener := by
  induction subscriptions with
  | nil => cases mem
  | cons s rest ih =>
      obtain ⟨first, ordered⟩ := List.pairwise_cons.mp ordered
      rcases List.mem_cons.mp mem with rfl | mem
      · rw [List.filter_cons_of_neg (by simp), filter_number_of_lt first]
        have absent : ∀ t ∈ rest, ¬t.number ≤ own.number := fun t mem =>
          Nat.not_le_of_lt (first t mem)
        simp +contextual [absent]
      · have before : s.number < own.number := first own mem
        rw [List.filter_cons_of_pos (by simpa using Nat.ne_of_lt before), List.map_cons,
          List.map_cons, List.cons.injEq, List.forall_mem_cons]
        constructor
        · rintro ⟨same, rest_eq⟩
          rw [same] at rest_eq
          exact ⟨fun _ => same, (ih ordered mem).mp rest_eq⟩
        · rintro ⟨same, rest_same⟩
          rw [same (Nat.le_of_lt before)]
          exact ⟨rfl, (ih ordered mem).mpr rest_same⟩

variable [DecidableEq κ]

/-- Looking for the listener takes the subscription away if nobody else has a place between the
earliest twin and the subscription. -/
theorem erase_listener_eq_iff
    (ordered : subscriptions.Pairwise fun s t => s.number < t.number) (mem : own ∈ subscriptions) :
    (subscriptions.map Subscription.listener).erase own.listener =
        (subscriptions.filter fun t => t.number ≠ own.number).map Subscription.listener ↔
      ∀ s ∈ subscriptions, ∀ t ∈ subscriptions, s.listener = own.listener →
        s.number ≤ t.number → t.number ≤ own.number → t.listener = own.listener := by
  induction subscriptions with
  | nil => cases mem
  | cons s rest ih =>
      obtain ⟨first, sorted⟩ := List.pairwise_cons.mp ordered
      rcases List.mem_cons.mp mem with rfl | mem
      · rw [List.filter_cons_of_neg (by simp), filter_number_of_lt first, List.map_cons,
          List.erase_cons_head]
        refine iff_of_true rfl ?_
        intro s _ t mem _ _ within
        rcases List.mem_cons.mp mem with rfl | mem
        · rfl
        · exact absurd (first t mem) (Nat.not_lt_of_le within)
      · have before : s.number < own.number := first own mem
        rw [List.filter_cons_of_pos (by simpa using Nat.ne_of_lt before), List.map_cons,
          List.map_cons]
        by_cases twin : s.listener = own.listener
        · -- The twin in front goes, so the listeners look the same only if twins follow it.
          rw [twin, List.erase_cons_head, map_eq_cons_filter_iff sorted mem]
          constructor
          · intro same _ _ t mem _ _ within
            rcases List.mem_cons.mp mem with rfl | mem
            · exact twin
            · exact same t mem within
          · intro same t mem within
            exact same s (List.mem_cons_self ..) t (List.mem_cons_of_mem _ mem) twin
              (Nat.le_of_lt (first t mem)) within
        · rw [List.erase_cons_tail (by simpa using twin), List.cons.injEq, ih sorted mem]
          constructor
          · rintro ⟨-, same⟩ u umem t tmem utwin order within
            rcases List.mem_cons.mp umem with rfl | umore
            · exact absurd utwin twin
            · rcases List.mem_cons.mp tmem with rfl | tmore
              · exact absurd (first u umore) (Nat.not_lt_of_le order)
              · exact same u umore t tmore utwin order within
          · intro same
            refine ⟨rfl, ?_⟩
            intro u umem t tmem
            exact same u (List.mem_cons_of_mem _ umem) t (List.mem_cons_of_mem _ tmem)

/-- For the event of the subscription, looking for the listener does what is meant just if that does
no harm. -/
theorem Ledger.Sound.erase_eq_iff {l : Ledger κ} (sound : l.Sound) {number : Nat} {event : String}
    {listener : κ} (entry : l.made[number]? = some (event, listener)) :
    (l.listeners event).erase listener = (l.step (.detach number)).listeners event ↔
      l.Harmless number := by
  have named : l.Harmless number ↔
      if ∃ s ∈ l.standing, s.number = number then
        ∀ s ∈ l.standingFor event, ∀ t ∈ l.standingFor event, s.listener = listener →
          s.number ≤ t.number → t.number ≤ number → t.listener = listener
      else listener ∉ l.listeners event := by
    simp only [Ledger.Harmless, entry, Option.some.injEq, Prod.mk.injEq]
    constructor
    · intro harmless
      exact harmless event listener ⟨rfl, rfl⟩
    · rintro harmless _ _ ⟨rfl, rfl⟩
      exact harmless
  rw [named]
  split
  · rename_i stands
    obtain ⟨own, standing, rfl⟩ := stands
    obtain ⟨rfl, rfl⟩ := Prod.mk.inj (Option.some.inj ((sound.known own standing).symm.trans entry))
    rw [Ledger.listeners_detach]
    exact erase_listener_eq_iff (sound.ordered.filter _)
      (List.mem_filter.mpr ⟨standing, decide_eq_true rfl⟩)
  · rename_i gone
    have absent : ∀ s ∈ l.standingFor event, s.number ≠ number := by
      intro s mem same
      exact gone ⟨s, (List.mem_filter.mp mem).1, same⟩
    rw [Ledger.listeners_detach_of_absent absent, List.erase_eq_self_iff]

end Erasing

variable [DecidableEq κ]

namespace Usage

def start : Usage κ := ⟨.empty, [], []⟩

/-- Detaching unsubscribes the listener that was subscribed. -/
def step (u : Usage κ) : Call κ → Usage κ
  | .subscribe event listener =>
    { u with
      bus := u.bus.subscribe event listener
      made := u.made ++ [(event, listener)] }
  | .detach number =>
    match u.made[number]? with
    | some (event, listener) => { u with bus := u.bus.unsubscribe event listener }
    | none => u
  | .emit event payload => { u with told := u.told ++ [(payload, u.bus.listeners event)] }

def after (calls : List (Call κ)) : Usage κ := calls.foldl step start

/-- A bus that is as it is meant to be, and has told everyone it was meant to tell. -/
structure Agrees (u : Usage κ) (l : Ledger κ) : Prop where
  made : u.made = l.made
  listeners : ∀ event, u.bus.listeners event = l.listeners event
  told : u.told = l.told

variable {u : Usage κ} {l : Ledger κ} {number : Nat} {event : String} {listener : κ}

theorem after_concat (calls : List (Call κ)) (call : Call κ) :
    after (calls ++ [call]) = (after calls).step call := by
  rw [after, List.foldl_append]
  rfl

theorem step_detach_of_none (entry : u.made[number]? = none) : u.step (.detach number) = u := by
  rw [step, entry]

theorem step_detach_of_some (entry : u.made[number]? = some (event, listener)) :
    u.step (.detach number) = { u with bus := u.bus.unsubscribe event listener } := by
  rw [step, entry]

theorem made_step (u : Usage κ) {l : Ledger κ} (same : u.made = l.made) (call : Call κ) :
    (u.step call).made = (l.step call).made := by
  cases call with
  | subscribe event listener => simp only [step, Ledger.step, same]
  | detach number =>
      cases entry : u.made[number]? with
      | none => rw [step_detach_of_none entry, same, Ledger.step]
      | some subscribed => rw [step_detach_of_some entry, Ledger.step, same]
  | emit event payload => exact same

theorem made_after (calls : List (Call κ)) : (after calls).made = (Ledger.after calls).made := by
  induction calls using List.reverseRecOn with
  | nil => rfl
  | append_singleton calls call ih =>
      rw [after_concat, Ledger.after_concat]
      exact made_step _ ih call

/-- Detaching keeps the bus as it is meant to be just if the detachment does no harm. -/
theorem Agrees.detach_iff (agrees : u.Agrees l) (sound : l.Sound) (number : Nat) :
    (u.step (.detach number)).Agrees (l.step (.detach number)) ↔ l.Harmless number := by
  cases entry : l.made[number]? with
  | none =>
      refine iff_of_true ?_ (by simp [Ledger.Harmless, entry])
      rw [step_detach_of_none (agrees.made ▸ entry)]
      refine ⟨agrees.made, ?_, agrees.told⟩
      intro event
      rw [sound.listeners_detach_of_none entry, agrees.listeners]
  | some subscribed =>
      obtain ⟨event, listener⟩ := subscribed
      rw [step_detach_of_some (agrees.made ▸ entry), ← sound.erase_eq_iff entry]
      constructor
      · intro after
        have listeners := after.listeners event
        rw [listeners_unsubscribe, if_pos rfl, agrees.listeners] at listeners
        exact listeners
      · intro erased
        refine ⟨agrees.made, ?_, agrees.told⟩
        intro other
        rw [listeners_unsubscribe]
        split
        · rename_i same
          rw [← same, agrees.listeners, erased]
        · rename_i differs
          rw [sound.listeners_detach_of_other entry differs, agrees.listeners]

/-- Subscribing and emitting keep the bus as it is meant to be. -/
theorem Agrees.step_iff (agrees : u.Agrees l) (sound : l.Sound) (call : Call κ) :
    (u.step call).Agrees (l.step call) ↔ ∀ number, call = .detach number → l.Harmless number := by
  cases call with
  | subscribe e k =>
      refine iff_of_true ⟨made_step u agrees.made _, ?_, agrees.told⟩ nofun
      intro event
      simp only [step, listeners_subscribe, Ledger.listeners_subscribe, agrees.listeners]
  | detach number =>
      rw [agrees.detach_iff sound]
      constructor
      · rintro harmless _ ⟨rfl⟩
        exact harmless
      · intro harmless
        exact harmless number rfl
  | emit event payload =>
      refine iff_of_true ⟨agrees.made, agrees.listeners, ?_⟩ nofun
      simp only [step, Ledger.step, agrees.told, agrees.listeners]

/-- The bus is as it is meant to be all along just if no detachment does harm. -/
theorem agrees_throughout_iff (calls : List (Call κ)) :
    (∀ earlier, earlier <+: calls → (after earlier).Agrees (Ledger.after earlier)) ↔
      ∀ earlier number, earlier ++ [.detach number] <+: calls →
        (Ledger.after earlier).Harmless number := by
  induction calls using List.reverseRecOn with
  | nil =>
      refine iff_of_true ?_ ?_
      · intro earlier within
        rw [List.prefix_nil.mp within]
        exact ⟨rfl, fun event => rfl, rfl⟩
      · intro earlier number within
        simp at within
  | append_singleton calls call ih =>
      simp only [List.prefix_concat_iff]
      constructor
      · intro agrees earlier number within
        rcases within with last | within
        · obtain ⟨rfl, detached⟩ := List.append_inj' last rfl
          have before := agrees earlier (.inr (List.prefix_refl _))
          have now := agrees _ (.inl rfl)
          rw [after_concat, Ledger.after_concat, before.step_iff (Ledger.sound_after _)] at now
          exact now number (List.singleton_inj.mp detached).symm
        · exact ih.mp (fun earlier within => agrees earlier (.inr within)) earlier number within
      · intro harmless earlier within
        have agrees := ih.mpr fun earlier number within => harmless earlier number (.inr within)
        rcases within with rfl | within
        · rw [after_concat, Ledger.after_concat,
            (agrees calls (List.prefix_refl _)).step_iff (Ledger.sound_after _)]
          rintro number rfl
          exact harmless calls number (.inl rfl)
        · exact agrees earlier within

/-- Listeners that are subscribed no more than once are detached as is meant, whatever becomes of
the others. -/
theorem filter_listeners_after (calls : List (Call κ)) (event : String) (group : κ → Bool)
    (once : ∀ listener, group listener → Once event listener (Ledger.after calls).made) :
    ((after calls).bus.listeners event).filter group =
      ((Ledger.after calls).listeners event).filter group := by
  induction calls using List.reverseRecOn with
  | nil => rfl
  | append_singleton calls call ih =>
      rw [Ledger.after_concat] at once
      rw [after_concat, Ledger.after_concat]
      cases call with
      | subscribe e k =>
          have before := ih fun listener mem => (once listener mem).of_append
          simp only [step, EventBus.listeners_subscribe, Ledger.listeners_subscribe]
          split
          · rename_i same
            rw [same, List.filter_append, List.filter_append, before]
          · exact before
      | detach number =>
          have before := ih once
          have sound := Ledger.sound_after calls
          cases entry : (Ledger.after calls).made[number]? with
          | none =>
              rw [step_detach_of_none (made_after calls ▸ entry),
                sound.listeners_detach_of_none entry, before]
          | some subscribed =>
              obtain ⟨e, k⟩ := subscribed
              rw [step_detach_of_some (made_after calls ▸ entry), listeners_unsubscribe]
              split
              · rename_i same
                subst same
                rw [← List.erase_filter, before]
                by_cases member : group k
                · have harmless := sound.harmless_of_once entry (once k member)
                  rw [List.erase_filter, (sound.erase_eq_iff entry).mpr harmless]
                · rw [sound.filter_listeners_detach entry member]
                  exact List.erase_of_not_mem fun mem => member (List.mem_filter.mp mem).2
              · rename_i differs
                rw [sound.listeners_detach_of_other entry differs, before]
      | emit e payload => exact ih once

/-- How many subscriptions of a listener to an event are left if each detachment of one of them
takes one away, as long as there is one. -/
def balance (event : String) (listener : κ) : List (String × κ) → List (Call κ) → Nat → Nat
  | _, [], left => left
  | made, .subscribe e k :: rest, left =>
    balance event listener (made ++ [(e, k)]) rest
      (if e = event ∧ k = listener then left + 1 else left)
  | made, .detach number :: rest, left =>
    balance event listener made rest
      (if made[number]? = some (event, listener) then left - 1 else left)
  | made, .emit .. :: rest, left => balance event listener made rest left

theorem count_foldl_step (event : String) (listener : κ) (calls : List (Call κ)) (u : Usage κ) :
    ((calls.foldl step u).bus.listeners event).count listener =
      balance event listener u.made calls ((u.bus.listeners event).count listener) := by
  induction calls generalizing u with
  | nil => rfl
  | cons call rest ih =>
      rw [List.foldl_cons, ih]
      cases call with
      | subscribe e k =>
          simp only [step, balance, EventBus.listeners_subscribe]
          by_cases same : e = event
          · by_cases twin : k = listener <;> simp [same, twin]
          · simp [same]
      | detach number =>
          rw [balance]
          cases entry : u.made[number]? with
          | none =>
              rw [step_detach_of_none entry]
              rfl
          | some subscribed =>
              obtain ⟨e, k⟩ := subscribed
              simp only [step_detach_of_some entry, listeners_unsubscribe, Option.some.injEq,
                Prod.mk.injEq]
              by_cases same : e = event
              · by_cases twin : k = listener <;> simp [same, twin, List.count_erase]
              · simp [same]
      | emit e payload => rfl

/-- What subscriptions come to after any calls. Each detachment takes away one subscription of its
listener, if one is left. The bus is as it is meant to be all along if no detachment does harm, and
only then; and those who have no twins never notice. -/
theorem subscriptions_after_calls (calls : List (Call κ)) :
    (∀ event listener, ((after calls).bus.listeners event).count listener =
      balance event listener [] calls 0) ∧
    ((∀ earlier, earlier <+: calls → (after earlier).Agrees (Ledger.after earlier)) ↔
      ∀ earlier number, earlier ++ [.detach number] <+: calls →
        (Ledger.after earlier).Harmless number) ∧
    ∀ event (group : κ → Bool),
      (∀ listener, group listener → Once event listener (Ledger.after calls).made) →
      ((after calls).bus.listeners event).filter group =
        ((Ledger.after calls).listeners event).filter group := by
  refine ⟨?_, agrees_throughout_iff calls, filter_listeners_after calls⟩
  intro event listener
  exact count_foldl_step event listener calls start

/-- A listener that is subscribed twice and detached twice through its first subscription is gone,
though its second subscription was never detached. -/
theorem repeated_detachment_takes_twin :
    let calls : List (Call String) :=
      [.subscribe "e" "a", .subscribe "e" "a", .detach 0, .detach 0, .emit "e" .null]
    let actions : List BusAction :=
      [.subscribe "a" "e" [], .subscribe "a" "e" [], .detach "a" (.int 0), .detach "a" (.int 0),
        .emit "e" .null]
    let live := (actions.forM (LiveBus.perform 8)).run.run LiveBus.empty
    (Ledger.after calls).told = [(.null, ["a"])] ∧ (after calls).told = [(.null, [])] ∧
      live.1 = .ok () ∧ live.2.calls = [] :=
  ⟨rfl, rfl, rfl, rfl⟩

end Usage

end LinkerScriptEditor.EventBus
