import LinkerScriptEditor.EventBus

/-!
# Emissions within emissions

A listener that is being called may subscribe and unsubscribe whomever it likes, and emit events of
its own. So emissions nest, and each goes on with those whom it found when it began while the bus
changes under it. Nothing is assumed here of what listeners do: whatever happens on a bus, in which
order ever, an emission that ends has called exactly those who were subscribed when it began.
-/

namespace LinkerScriptEditor.EventBus

variable {κ : Type}

/-- What happens on a bus. Emissions are numbered in the order in which they begin. One that a
listener fails is abandoned. -/
inductive Happening (κ : Type)
  | subscribed (event : String) (listener : κ)
  | unsubscribed (event : String) (listener : κ)
  | begun (number : Nat) (event : String) (payload : Datum)
  | called (number : Nat) (listener : κ) (payload : Datum)
  | ended (number : Nat)
  | abandoned (number : Nat)

namespace Happening

def call? : Happening κ → Option (κ × Datum)
  | .called _ listener payload => some (listener, payload)
  | _ => none

/-- The call that an emission makes. -/
def callOf? (number : Nat) : Happening κ → Option (κ × Datum)
  | .called n listener payload => if n = number then some (listener, payload) else none
  | _ => none

/-- An emission goes on with a call or comes to its end. -/
def Moves (number : Nat) : Happening κ → Prop
  | .called n .. => n = number
  | .ended n => n = number
  | .abandoned n => n = number
  | _ => False

theorem callOf?_of_not_moves {number : Nat} {h : Happening κ} (still : ¬h.Moves number) :
    h.callOf? number = none := by
  cases h with
  | called n listener payload => exact if_neg still
  | _ => rfl

end Happening

def calls (log : List (Happening κ)) : List (κ × Datum) := log.filterMap Happening.call?

def callsOf (number : Nat) (log : List (Happening κ)) : List (κ × Datum) :=
  log.filterMap (Happening.callOf? number)

theorem calls_append (log more : List (Happening κ)) :
    calls (log ++ more) = calls log ++ calls more :=
  List.filterMap_append

theorem callsOf_append (number : Nat) (log more : List (Happening κ)) :
    callsOf number (log ++ more) = callsOf number log ++ callsOf number more :=
  List.filterMap_append

theorem callsOf_cons_of_none {number : Nat} {h : Happening κ} (silent : h.callOf? number = none)
    (log : List (Happening κ)) : callsOf number (h :: log) = callsOf number log :=
  List.filterMap_cons_none silent

theorem callsOf_cons_called (number : Nat) (listener : κ) (payload : Datum)
    (log : List (Happening κ)) :
    callsOf number (.called number listener payload :: log) =
      (listener, payload) :: callsOf number log :=
  List.filterMap_cons_some (if_pos rfl)

theorem callsOf_eq_nil {number : Nat} {log : List (Happening κ)}
    (still : ∀ h ∈ log, ¬h.Moves number) : callsOf number log = [] :=
  List.filterMap_eq_nil_iff.mpr fun h mem => Happening.callOf?_of_not_moves (still h mem)

/-- An emission that has begun, and whom it has still to call. -/
structure Underway (κ : Type) where
  number : Nat
  payload : Datum
  waiting : List κ

def Underway.due (u : Underway κ) : List (κ × Datum) :=
  u.waiting.map fun listener => (listener, u.payload)

/-- A bus with the emissions that are under way, the innermost first. -/
structure Activity (κ : Type) where
  bus : EventBus κ
  begun : Nat
  underway : List (Underway κ)

variable [DecidableEq κ]

def change (bus : EventBus κ) : Happening κ → EventBus κ
  | .subscribed event listener => bus.subscribe event listener
  | .unsubscribed event listener => bus.unsubscribe event listener
  | _ => bus

/-- A bus after all changes of a log. -/
def changed (bus : EventBus κ) (log : List (Happening κ)) : EventBus κ := log.foldl change bus

/-- Every emission of a log calls those who are subscribed to its event when it begins, as often and
in the order as they are subscribed, with its payload. If it does not end it may not get to all of
them. -/
def Snapshots (bus : EventBus κ) (log : List (Happening κ)) : Prop :=
  ∀ earlier number event payload later, log = earlier ++ .begun number event payload :: later →
    let audience := ((bus.changed earlier).listeners event).map fun listener => (listener, payload)
    callsOf number log <+: audience ∧ (.ended number ∈ log → callsOf number log = audience)

namespace Activity

def idle (bus : EventBus κ) : Activity κ := ⟨bus, 0, []⟩

/-- The bus may change and emissions may begin at any time, but only the innermost emission goes on.
-/
inductive Step : Activity κ → Happening κ → Activity κ → Prop
  | subscribe {a : Activity κ} (event : String) (listener : κ) :
      Step a (.subscribed event listener) { a with bus := a.bus.subscribe event listener }
  | unsubscribe {a : Activity κ} (event : String) (listener : κ) :
      Step a (.unsubscribed event listener) { a with bus := a.bus.unsubscribe event listener }
  | begin {bus : EventBus κ} {begun : Nat} {outer : List (Underway κ)} (event : String)
      (payload : Datum) :
      Step ⟨bus, begun, outer⟩ (.begun begun event payload)
        ⟨bus, begun + 1, ⟨begun, payload, bus.listeners event⟩ :: outer⟩
  | call {bus : EventBus κ} {begun number : Nat} {payload : Datum} {listener : κ}
      {waiting : List κ} {outer : List (Underway κ)} :
      Step ⟨bus, begun, ⟨number, payload, listener :: waiting⟩ :: outer⟩
        (.called number listener payload) ⟨bus, begun, ⟨number, payload, waiting⟩ :: outer⟩
  | finish {bus : EventBus κ} {begun number : Nat} {payload : Datum}
      {outer : List (Underway κ)} :
      Step ⟨bus, begun, ⟨number, payload, []⟩ :: outer⟩ (.ended number) ⟨bus, begun, outer⟩
  | abandon {bus : EventBus κ} {begun : Nat} {u : Underway κ} {outer : List (Underway κ)} :
      Step ⟨bus, begun, u :: outer⟩ (.abandoned u.number) ⟨bus, begun, outer⟩

inductive Run : Activity κ → List (Happening κ) → Activity κ → Prop
  | nil (a : Activity κ) : Run a [] a
  | cons {a b c : Activity κ} {h : Happening κ} {log : List (Happening κ)} (step : Step a h b)
      (rest : Run b log c) : Run a (h :: log) c

/-- No two emissions under way share a number, and new ones get new numbers. -/
structure Sound (a : Activity κ) : Prop where
  old : ∀ u ∈ a.underway, u.number < a.begun
  distinct : (a.underway.map Underway.number).Nodup

/-- The calls that an emission has still to make, if it is under way. -/
def due (number : Nat) : List (Underway κ) → Option (List (κ × Datum))
  | [] => none
  | u :: outer => if u.number = number then some u.due else due number outer

section Due

omit [DecidableEq κ]
variable {number : Nat} {outer : List (Underway κ)}

theorem sound_idle (bus : EventBus κ) : (idle bus).Sound := ⟨nofun, List.nodup_nil⟩

theorem due_eq_none (absent : number ∉ outer.map Underway.number) : due number outer = none := by
  induction outer with
  | nil => rfl
  | cons u outer ih =>
      obtain ⟨ne, absent⟩ := not_or.mp (mt List.mem_cons.mpr absent)
      rw [due, if_neg (Ne.symm ne), ih absent]

end Due

/-- What a happening is to one emission, by the calls that are due before and after it. -/
inductive Progress (number : Nat) :
    Option (List (κ × Datum)) → Happening κ → Option (List (κ × Datum)) → Prop
  | still {due : Option (List (κ × Datum))} {h : Happening κ} (still : ¬h.Moves number) :
      Progress number due h due
  | call {calls : List (κ × Datum)} (listener : κ) (payload : Datum) :
      Progress number (some ((listener, payload) :: calls)) (.called number listener payload)
        (some calls)
  | finish : Progress number (some []) (.ended number) none
  | abandon {calls : List (κ × Datum)} :
      Progress number (some calls) (.abandoned number) none

section Step

variable {a b : Activity κ} {h : Happening κ} {number : Nat}

theorem Step.bus (step : Step a h b) : b.bus = a.bus.change h := by cases step <;> rfl

theorem Step.begun_le (step : Step a h b) : a.begun ≤ b.begun := by
  cases step with
  | begin => exact Nat.le_succ _
  | _ => exact Nat.le_refl _

theorem Step.sound (step : Step a h b) (sound : a.Sound) : b.Sound := by
  obtain ⟨old, distinct⟩ := sound
  cases step with
  | subscribe => exact ⟨old, distinct⟩
  | unsubscribe => exact ⟨old, distinct⟩
  | begin event payload =>
      refine ⟨List.forall_mem_cons.mpr ⟨Nat.lt_succ_self _, ?_⟩,
        List.nodup_cons.mpr ⟨?_, distinct⟩⟩
      · exact fun u mem => Nat.lt_succ_of_lt (old u mem)
      · intro mem
        obtain ⟨u, mem, same⟩ := List.mem_map.mp mem
        exact absurd same (Nat.ne_of_lt (old u mem))
  | call =>
      obtain ⟨first, outer⟩ := List.forall_mem_cons.mp old
      exact ⟨List.forall_mem_cons.mpr ⟨first, outer⟩, distinct⟩
  | finish => exact ⟨(List.forall_mem_cons.mp old).2, (List.nodup_cons.mp distinct).2⟩
  | abandon => exact ⟨(List.forall_mem_cons.mp old).2, (List.nodup_cons.mp distinct).2⟩

theorem Step.lt_begun (step : Step a h b) (sound : a.Sound) (moves : h.Moves number) :
    number < a.begun := by
  cases step with
  | subscribe => exact moves.elim
  | unsubscribe => exact moves.elim
  | begin => exact moves.elim
  | call => exact moves ▸ (List.forall_mem_cons.mp sound.old).1
  | finish => exact moves ▸ (List.forall_mem_cons.mp sound.old).1
  | abandon => exact moves ▸ (List.forall_mem_cons.mp sound.old).1

theorem Step.progress (step : Step a h b) (sound : a.Sound) (old : number < a.begun) :
    Progress number (due number a.underway) h (due number b.underway) := by
  cases step with
  | subscribe event listener => exact .still not_false
  | unsubscribe event listener => exact .still not_false
  | begin event payload =>
      rw [due, if_neg (Nat.ne_of_gt old)]
      exact .still not_false
  | @call bus begun n payload listener waiting outer =>
      by_cases same : n = number
      · subst same
        rw [due, if_pos rfl, due, if_pos rfl]
        exact .call listener payload
      · rw [due, if_neg same, due, if_neg same]
        exact .still same
  | @finish bus begun n payload outer =>
      by_cases same : n = number
      · subst same
        rw [due, if_pos rfl, due_eq_none (List.nodup_cons.mp sound.distinct).1]
        exact .finish
      · rw [due, if_neg same]
        exact .still same
  | @abandon bus begun u outer =>
      by_cases same : u.number = number
      · subst same
        rw [due, if_pos rfl, due_eq_none (List.nodup_cons.mp sound.distinct).1]
        exact .abandon
      · rw [due, if_neg same]
        exact .still same

end Step

section Run

variable {a b c : Activity κ} {h : Happening κ} {log more : List (Happening κ)} {number : Nat}

theorem Run.append (run : Run a log b) (rest : Run b more c) : Run a (log ++ more) c := by
  induction run with
  | nil => exact rest
  | cons step later ih => exact .cons step (ih rest)

theorem Run.exists_middle (run : Run a (log ++ more) c) :
    ∃ b, Run a log b ∧ Run b more c := by
  induction log generalizing a with
  | nil => exact ⟨a, .nil a, run⟩
  | cons h log ih =>
      cases run with
      | cons step rest =>
          obtain ⟨b, earlier, later⟩ := ih rest
          exact ⟨b, .cons step earlier, later⟩

theorem Run.bus (run : Run a log b) : b.bus = a.bus.changed log := by
  induction run with
  | nil => rfl
  | cons step rest ih => rw [ih, step.bus, changed, changed, List.foldl_cons]

theorem Run.sound (run : Run a log b) (sound : a.Sound) : b.Sound := by
  induction run with
  | nil => exact sound
  | cons step rest ih => exact ih (step.sound sound)

theorem Run.begun_le (run : Run a log b) : a.begun ≤ b.begun := by
  induction run with
  | nil => exact Nat.le_refl _
  | cons step rest ih => exact Nat.le_trans step.begun_le ih

/-- An emission does not move before it has begun. -/
theorem Run.still_of_le (run : Run a log b) (sound : a.Sound) (fresh : b.begun ≤ number) :
    ∀ h ∈ log, ¬h.Moves number := by
  induction run with
  | nil => exact nofun
  | cons step rest ih =>
      refine List.forall_mem_cons.mpr ⟨fun moves => ?_, ih (step.sound sound) fresh⟩
      have old := step.lt_begun sound moves
      exact Nat.not_lt_of_le (Nat.le_trans (Nat.le_trans step.begun_le rest.begun_le) fresh) old

/-- An emission does not move after it has ended. -/
theorem Run.still_of_over (run : Run a log b) (sound : a.Sound) (old : number < a.begun)
    (gone : due number a.underway = none) : ∀ h ∈ log, ¬h.Moves number := by
  induction run with
  | nil => exact nofun
  | cons step rest ih =>
      have progress := step.progress sound old
      rw [gone] at progress
      generalize left : due number _ = calls at progress
      cases progress with
      | still still =>
          exact List.forall_mem_cons.mpr
            ⟨still, ih (step.sound sound) (Nat.lt_of_lt_of_le old step.begun_le) left⟩

/-- An emission that is under way makes the calls that are due, and all of them if it ends. -/
theorem Run.callsOf_of_due {calls : List (κ × Datum)} (run : Run a log b) (sound : a.Sound)
    (old : number < a.begun) (goesOn : due number a.underway = some calls) :
    callsOf number log <+: calls ∧ (.ended number ∈ log → callsOf number log = calls) := by
  induction run generalizing calls with
  | nil => exact ⟨List.nil_prefix, nofun⟩
  | cons step rest ih =>
      have progress := step.progress sound old
      have stays := step.sound sound
      have older := Nat.lt_of_lt_of_le old step.begun_le
      rw [goesOn] at progress
      generalize left : due number _ = calls' at progress
      cases progress with
      | still still =>
          obtain ⟨some, all⟩ := ih stays older left
          rw [callsOf_cons_of_none (Happening.callOf?_of_not_moves still)]
          refine ⟨some, fun mem => all ((List.mem_cons.mp mem).resolve_left ?_)⟩
          rintro rfl
          exact still rfl
      | call listener payload =>
          obtain ⟨some, all⟩ := ih stays older left
          rw [callsOf_cons_called]
          refine ⟨(List.prefix_cons_inj _).mpr some, fun mem => ?_⟩
          rw [all ((List.mem_cons.mp mem).resolve_left nofun)]
      | finish =>
          have gone := rest.still_of_over stays older left
          rw [callsOf_cons_of_none rfl, callsOf_eq_nil gone]
          exact ⟨List.nil_prefix, fun _ => rfl⟩
      | abandon =>
          -- An emission that is abandoned does not end later on.
          have gone := rest.still_of_over stays older left
          rw [callsOf_cons_of_none rfl, callsOf_eq_nil gone]
          refine ⟨List.nil_prefix, fun mem => ?_⟩
          exact absurd rfl (gone _ ((List.mem_cons.mp mem).resolve_left nofun))

/-- Whatever happens on a bus, every emission calls those whom it found. -/
theorem Run.snapshots {bus : EventBus κ} (run : Run (idle bus) log a) : Snapshots bus log := by
  rintro earlier number event payload later rfl
  obtain ⟨b, before, after⟩ := run.exists_middle
  have sound := before.sound (sound_idle bus)
  cases after with
  | cons step rest =>
      have stays := step.sound sound
      cases step with
      | @begin present begun outer event payload =>
          obtain rfl : present = bus.changed earlier := before.bus
          have still := before.still_of_le (sound_idle bus) (Nat.le_refl number)
          have silent : callsOf number (earlier ++ .begun number event payload :: later) =
              callsOf number later := by
            rw [callsOf_append, callsOf_eq_nil still, List.nil_append]
            exact callsOf_cons_of_none rfl later
          obtain ⟨some, all⟩ := rest.callsOf_of_due stays (Nat.lt_succ_self number) (if_pos rfl)
          rw [silent]
          refine ⟨some, fun mem => all ?_⟩
          have within := (List.mem_append.mp mem).resolve_left fun mem => still _ mem rfl
          exact (List.mem_cons.mp within).resolve_left nofun

end Run

end Activity

end LinkerScriptEditor.EventBus
