import LinkerScriptEditor.Proofs.EventBus.Reentry

/-!
# What a live bus goes through

To see that a live bus behaves as a bus in the midst of emissions does, its actions are done once
more with a log of what happens. The log changes nothing: without it everything comes to the same.
And it is a run of the bus, so each emission of the log calls those whom it found when it began.
-/

namespace LinkerScriptEditor.LiveBus

open EventBus

/-- A live bus, how many emissions have begun on it, and the log of what happened. -/
structure Narration where
  live : LiveBus
  begun : Nat
  log : List (Happening String)

abbrev Telling := ExceptT BusFault (StateM Narration)

def look : Telling LiveBus := Narration.live <$> get

def note (f : LiveBus → LiveBus) (h : Happening String) : Telling Unit :=
  modify fun n => { n with live := f n.live, log := n.log ++ [h] }

/-- Notes that an emission begins, and gives it the next number. -/
def begin (event : String) (payload : Datum) : Telling Nat := do
  let n ← get
  set { n with begun := n.begun + 1, log := n.log ++ [Happening.begun n.begun event payload] }
  return n.begun

def tellWithdrawal (listener event : String) : Nat → Telling Unit
  | 0 => throw (.tooDeep .call)
  | room + 1 => do
    match overrun? room listener ((← look).bus.listeners event) with
    | some overrun => throw (.tooDeep overrun)
    | none => note (unsubscribe listener event) (.unsubscribed event listener)

/-- Does an action and everything that follows from it, and notes what happens. -/
def tell : Nat → BusAction → Telling Unit
  | _ + 2, .subscribe listener event reaction =>
    note (subscribe listener event reaction) (.subscribed event listener)
  | room + 1, .unsubscribe listener event => tellWithdrawal listener event room
  | room + 1, .detach listener index => do
    let event ← (← look).subscribed listener index
    match room with
    | 0 => throw (.tooDeep .call)
    | room + 1 => tellWithdrawal listener event room
  | room + 2, .emit event payload => do
    let number ← begin event payload
    for listener in (← look).bus.listeners event do
      match room with
      | 0 => throw (.tooDeep .call)
      | room + 1 =>
        note (call listener payload) (.called number listener payload)
        for action in (← look).reaction listener do
          tell room action
    note id (.ended number)
  | _, _ => throw (.tooDeep .call)

/-- An emission, by what is done for each listener. -/
def emission (event : String) (payload : Datum)
    (each : Nat → String → Telling (ForInStep PUnit)) : Telling Unit := do
  let number ← begin event payload
  let s ← look
  forIn (s.bus.listeners event) PUnit.unit fun listener _ => each number listener
  note id (.ended number)

section Outcome

variable {σ α β : Type}

/-- What a step comes to, and the state it leaves. -/
def outcome (x : ExceptT BusFault (StateM σ) α) (s : σ) : Except BusFault α × σ := x.run.run s

theorem outcome_bind (x : ExceptT BusFault (StateM σ) α) (f : α → ExceptT BusFault (StateM σ) β)
    (s : σ) : outcome (x >>= f) s = match outcome x s with
      | (.ok a, next) => outcome (f a) next
      | (.error fault, next) => (.error fault, next) := by
  simp only [outcome, ExceptT.run_bind, StateT.run_bind]
  rcases StateT.run x.run s with ⟨_ | _, next⟩ <;> rfl

theorem exists_of_outcome_bind {x : ExceptT BusFault (StateM σ) α}
    {f : α → ExceptT BusFault (StateM σ) β} {s next : σ} {b : β}
    (done : outcome (x >>= f) s = (.ok b, next)) :
    ∃ a between, outcome x s = (.ok a, between) ∧ outcome (f a) between = (.ok b, next) := by
  rw [outcome_bind] at done
  cases first : outcome x s with
  | mk result between =>
      rw [first] at done
      cases result with
      | ok a => exact ⟨a, between, rfl, done⟩
      | error fault => cases done

theorem outcome_get (s : σ) : outcome (get : ExceptT BusFault (StateM σ) σ) s = (.ok s, s) := rfl

end Outcome

theorem outcome_begin (event : String) (payload : Datum) (n : Narration) :
    outcome (begin event payload) n = (.ok n.begun,
      { n with begun := n.begun + 1, log := n.log ++ [.begun n.begun event payload] }) := rfl

/-- A narration goes on: what is logged is a run of the bus, and says which calls were made. -/
def Leads (n : Narration) (outer : List (Underway String)) (m : Narration)
    (left : List (Underway String)) : Prop :=
  ∃ more, m.log = n.log ++ more ∧ m.live.calls = n.live.calls ++ EventBus.calls more ∧
    Activity.Run ⟨n.live.bus, n.begun, outer⟩ more ⟨m.live.bus, m.begun, left⟩

section Leads

variable {n m o : Narration} {outer middle left : List (Underway String)}

theorem Leads.refl (n : Narration) (outer : List (Underway String)) : Leads n outer n outer :=
  ⟨[], (List.append_nil _).symm, (List.append_nil _).symm, .nil _⟩

theorem Leads.trans (first : Leads n outer m middle) (second : Leads m middle o left) :
    Leads n outer o left := by
  obtain ⟨log, logged, called, run⟩ := first
  obtain ⟨more, logged', called', run'⟩ := second
  refine ⟨log ++ more, ?_, ?_, run.append run'⟩
  · rw [logged', logged, List.append_assoc]
  · rw [called', called, calls_append, List.append_assoc]

theorem Leads.of_step {h : Happening String} (logged : m.log = n.log ++ [h])
    (called : m.live.calls = n.live.calls ++ EventBus.calls [h])
    (step : Activity.Step ⟨n.live.bus, n.begun, outer⟩ h ⟨m.live.bus, m.begun, left⟩) :
    Leads n outer m left :=
  ⟨[h], logged, called, .cons step (.nil _)⟩

end Leads

/-- What is told comes to what is done, and tells how. What is under way afterwards depends on the
answer; if there is none, some emissions are not over. -/
inductive Told {α : Type} (n : Narration) (outer : List (Underway String))
    (left : α → List (Underway String)) :
    Except BusFault α × Narration → Except BusFault α × LiveBus → Prop
  | ok {m : Narration} (a : α) (leads : Leads n outer m (left a)) :
      Told n outer left (.ok a, m) (.ok a, m.live)
  | error {m : Narration} {broken : List (Underway String)} (fault : BusFault)
      (leads : Leads n outer m broken) : Told n outer left (.error fault, m) (.error fault, m.live)

/-- A step is told as it is done, wherever a narration stands. -/
def Tells {α : Type} (outer : List (Underway String)) (left : α → List (Underway String))
    (x : Telling α) (y : Step α) : Prop :=
  ∀ n : Narration, Told n outer left (outcome x n) (outcome y n.live)

section Tells

variable {α β : Type} {outer : List (Underway String)} {middle : α → List (Underway String)}
  {left : β → List (Underway String)} {x : Telling α} {y : Step α}

theorem Leads.told {n m : Narration} {between : List (Underway String)}
    {r : Except BusFault β × Narration} {done : Except BusFault β × LiveBus}
    (leads : Leads n outer m between) (told : Told m between left r done) :
    Told n outer left r done := by
  cases told with
  | ok a later => exact .ok a (leads.trans later)
  | error fault later => exact .error fault (leads.trans later)

theorem Told.exists_leads {n : Narration} {r : Except BusFault α × Narration}
    {done : Except BusFault α × LiveBus} (told : Told n outer middle r done) :
    done = (r.1, r.2.live) ∧ ∃ underway, Leads n outer r.2 underway := by
  cases told with
  | ok a leads => exact ⟨rfl, _, leads⟩
  | error fault leads => exact ⟨rfl, _, leads⟩

theorem Tells.pure {b : β} (same : left b = outer) :
    Tells outer left (Pure.pure b) (Pure.pure b) :=
  fun n => .ok b (same.symm ▸ .refl n outer)

theorem Tells.throw (fault : BusFault) :
    Tells outer left (throw fault : Telling β) (throw fault : Step β) :=
  fun n => .error fault (.refl n outer)

theorem Tells.look : Tells outer (fun _ => outer) look get := fun n => .ok n.live (.refl n outer)

theorem Tells.liftM (e : Except BusFault α) :
    Tells outer (fun _ => outer) (liftM e : Telling α) (liftM e : Step α) := by
  intro n
  cases e with
  | ok a => exact .ok a (.refl n outer)
  | error fault => exact .error fault (.refl n outer)

theorem Tells.note {f : LiveBus → LiveBus} {h : Happening String}
    {after : List (Underway String)}
    (called : ∀ s : LiveBus, (f s).calls = s.calls ++ EventBus.calls [h])
    (step : ∀ (s : LiveBus) (begun : Nat),
      Activity.Step ⟨s.bus, begun, outer⟩ h ⟨(f s).bus, begun, after⟩) :
    Tells outer (fun _ => after) (note f h) (modify f) :=
  fun n => .ok () (.of_step rfl (called n.live) (step n.live n.begun))

theorem Tells.bind {f : α → Telling β} {g : α → Step β} (first : Tells outer middle x y)
    (rest : ∀ a, Tells (middle a) left (f a) (g a)) : Tells outer left (x >>= f) (y >>= g) := by
  intro n
  rw [outcome_bind, outcome_bind]
  have told := first n
  generalize outcome x n = r, outcome y n.live = done at told
  cases told with
  | ok a leads => exact leads.told (rest a _)
  | error fault leads => exact .error fault leads

theorem Tells.leads (tells : Tells outer middle x y) {n m : Narration} {a : α}
    (done : outcome x n = (.ok a, m)) : Leads n outer m (middle a) := by
  have told := tells n
  rw [done] at told
  generalize outcome y n.live = result at told
  cases told with
  | ok a leads => exact leads

/-- A loop, by what is under way when some of its items are left. -/
theorem Tells.forIn {ι : Type} {f : ι → Telling (ForInStep PUnit)}
    {g : ι → Step (ForInStep PUnit)} (under : List ι → List (Underway String))
    (each : ∀ i rest, Tells (under (i :: rest))
      (fun | .done _ => under [] | .yield _ => under rest) (f i) (g i)) (items : List ι) :
    Tells (under items) (fun _ => under []) (forIn items PUnit.unit fun i _ => f i)
      (forIn items PUnit.unit fun i _ => g i) := by
  induction items with
  | nil =>
      rw [List.forIn_nil, List.forIn_nil]
      exact .pure rfl
  | cons i rest ih =>
      rw [List.forIn_cons, List.forIn_cons]
      refine (each i rest).bind fun next => ?_
      cases next with
      | done => exact .pure rfl
      | yield => exact ih

end Tells

section Actions

variable {outer : List (Underway String)}

theorem tells_withdraw (listener event : String) (room : Nat) :
    Tells outer (fun _ => outer) (tellWithdrawal listener event room)
      (withdraw listener event room) := by
  cases room with
  | zero => exact .throw _
  | succ room =>
      refine Tells.look.bind fun s => ?_
      cases overrun? room listener (s.bus.listeners event) with
      | some overrun => exact .throw _
      | none =>
          exact .note (fun s => (List.append_nil _).symm)
            fun s begun => .unsubscribe event listener

theorem tells_reaction {room : Nat}
    (each : ∀ action, Tells outer (fun _ => outer) (tell room action) (perform room action))
    (reaction : List BusAction) :
    Tells outer (fun _ => outer)
      (forIn reaction PUnit.unit fun action _ =>
        tell room action >>= fun _ => Pure.pure (.yield PUnit.unit))
      (forIn reaction PUnit.unit fun action _ =>
        perform room action >>= fun _ => Pure.pure (.yield PUnit.unit)) :=
  .forIn (fun _ => outer) (fun action _ => (each action).bind fun _ => .pure rfl) reaction

/-- What an emission does for each listener takes the listener from those who wait. -/
def CallsNext (outer : List (Underway String)) (payload : Datum)
    (f : Nat → String → Telling (ForInStep PUnit)) (g : String → Step (ForInStep PUnit)) : Prop :=
  ∀ (number : Nat) (listener : String) (waiting : List String),
    Tells (⟨number, payload, listener :: waiting⟩ :: outer)
      (fun
        | .done _ => ⟨number, payload, []⟩ :: outer
        | .yield _ => ⟨number, payload, waiting⟩ :: outer)
      (f number listener) (g listener)

section Emission

variable {f : Nat → String → Telling (ForInStep PUnit)} {g : String → Step (ForInStep PUnit)}
  {event : String} {payload : Datum}

theorem CallsNext.loop (each : CallsNext outer payload f g) (number : Nat)
    (audience : List String) :
    Tells (⟨number, payload, audience⟩ :: outer) (fun _ => ⟨number, payload, []⟩ :: outer)
      (forIn audience PUnit.unit fun listener _ => f number listener)
      (forIn audience PUnit.unit fun listener _ => g listener) :=
  .forIn (fun waiting => ⟨number, payload, waiting⟩ :: outer) (each number) audience

/-- An emission is under way while its loop runs, and has called everyone when the loop is done. -/
theorem CallsNext.tells_emission (each : CallsNext outer payload f g) (event : String) :
    Tells outer (fun _ => outer) (emission event payload f)
      (get >>= fun s =>
        forIn (s.bus.listeners event) PUnit.unit (fun listener _ => g listener) >>=
          fun _ => Pure.pure ()) := by
  intro n
  -- Its number and whom it calls are those of this moment, so the loop is run from here.
  have begins : Leads n outer
      { n with begun := n.begun + 1, log := n.log ++ [.begun n.begun event payload] }
      (⟨n.begun, payload, n.live.bus.listeners event⟩ :: outer) :=
    .of_step rfl (List.append_nil _).symm (.begin event payload)
  have loop := each.loop n.begun (n.live.bus.listeners event)
  have ends : Tells (⟨n.begun, payload, []⟩ :: outer) (fun _ => outer)
      (note id (.ended n.begun)) (Pure.pure ()) :=
    .note (fun s => (List.append_nil _).symm) fun s begun => .finish
  rw [emission, outcome_bind, outcome_begin, outcome_bind, outcome_get]
  exact begins.told (loop.bind (fun _ => ends) _)

/-- The log of an emission that goes well begins and ends with it. -/
theorem CallsNext.log_emission (each : CallsNext outer payload f g) {n m : Narration}
    (done : outcome (emission event payload f) n = (.ok (), m)) :
    ∃ more, m.log = n.log ++ .begun n.begun event payload :: more ++ [.ended n.begun] := by
  obtain ⟨number, middle, begins, done⟩ := exists_of_outcome_bind done
  cases begins
  obtain ⟨s, middle, looks, done⟩ := exists_of_outcome_bind done
  cases looks
  obtain ⟨_, middle, loops, done⟩ := exists_of_outcome_bind done
  cases done
  obtain ⟨more, logged, -⟩ := (each.loop n.begun (n.live.bus.listeners event)).leads loops
  refine ⟨more, ?_⟩
  dsimp only at logged ⊢
  rw [logged, List.append_assoc n.log, List.singleton_append]

end Emission

/-- What is told of an action: it comes to what is done, and if it is an emission that goes well,
the log begins and ends with it. -/
structure Reports (room : Nat) (action : BusAction) : Prop where
  tells : ∀ outer, Tells outer (fun _ => outer) (tell room action) (perform room action)
  framed : ∀ event payload, action = .emit event payload → ∀ n m : Narration,
    outcome (tell room action) n = (.ok (), m) →
      ∃ more, m.log = n.log ++ .begun n.begun event payload :: more ++ [.ended n.begun]

theorem reports_emission {room : Nat} {event : String} {payload : Datum}
    {f : Nat → String → Telling (ForInStep PUnit)} {g : String → Step (ForInStep PUnit)}
    (told : tell room (.emit event payload) = emission event payload f)
    (done : perform room (.emit event payload) =
      get >>= fun s =>
        forIn (s.bus.listeners event) PUnit.unit (fun listener _ => g listener) >>=
          fun _ => Pure.pure ())
    (each : ∀ outer, CallsNext outer payload f g) : Reports room (.emit event payload) where
  tells outer := by
    rw [told, done]
    exact (each outer).tells_emission event
  framed := by
    rintro _ _ ⟨⟩ n m result
    rw [told] at result
    exact (each []).log_emission result

theorem reports (room : Nat) (action : BusAction) : Reports room action := by
  -- What a listener does has less room than the emission that calls it.
  induction room using Nat.strongRecOn generalizing action with
  | ind room ih =>
  cases action with
  | subscribe listener event reaction =>
      refine ⟨fun outer => ?_, nofun⟩
      match room with
      | 0 => exact .throw _
      | 1 => exact .throw _
      | room + 2 =>
          exact .note (fun s => (List.append_nil _).symm) fun s begun => .subscribe event listener
  | unsubscribe listener event =>
      refine ⟨fun outer => ?_, nofun⟩
      match room with
      | 0 => exact .throw _
      | room + 1 =>
          rw [tell, perform]
          exact tells_withdraw listener event room
  | detach listener index =>
      refine ⟨fun outer => ?_, nofun⟩
      match room with
      | 0 => exact .throw _
      | room + 1 =>
          rw [tell, perform]
          refine Tells.look.bind fun s => (Tells.liftM _).bind fun event => ?_
          cases room with
          | zero => exact .throw _
          | succ room => exact tells_withdraw listener event room
  | emit event payload =>
      match room with
      | 0 => exact ⟨fun outer => .throw _, fun _ _ _ _ _ done => nomatch done⟩
      | 1 => exact ⟨fun outer => .throw _, fun _ _ _ _ _ done => nomatch done⟩
      | room + 2 =>
          refine reports_emission (by rw [tell, emission]) (by rw [perform])
            fun outer number listener waiting => ?_
          cases room with
          | zero => exact (Tells.throw _).bind fun _ => .pure rfl
          | succ room =>
              refine Tells.bind (.note (fun s => rfl) fun s begun => .call) fun _ => ?_
              refine Tells.look.bind fun s => ?_
              have reaction := tells_reaction (fun action => (ih room (by omega) action).tells
                (⟨number, payload, waiting⟩ :: outer)) (s.reaction listener)
              exact reaction.bind fun _ => .pure rfl

end Actions

/-- Emissions call those whom they found. Whatever happens on a bus, every emission that ends has
called exactly those who were subscribed to its event when it began, as often and in the order as
they were subscribed, with its payload; what others do meanwhile shows only in emissions that begin
later. A live bus goes through such a run in all that it does, and an emission on it that goes well
has ended. -/
theorem emissions_call_snapshots :
    (∀ {κ : Type} [DecidableEq κ] (bus : EventBus κ) (log : List (Happening κ)) (a : Activity κ),
      Activity.Run (.idle bus) log a → Snapshots bus log) ∧
    ∀ (room : Nat) (action : BusAction) (s : LiveBus),
      let told := outcome (tell room action) ⟨s, 0, []⟩
      outcome (perform room action) s = (told.1, told.2.live) ∧
      told.2.live.calls = s.calls ++ EventBus.calls told.2.log ∧
      (∃ underway, Activity.Run (.idle s.bus) told.2.log
        ⟨told.2.live.bus, told.2.begun, underway⟩) ∧
      Snapshots s.bus told.2.log ∧
      ∀ event payload, action = .emit event payload → told.1 = .ok () →
        (∃ more, told.2.log = .begun 0 event payload :: more ++ [.ended 0]) ∧
        callsOf 0 told.2.log = (s.bus.listeners event).map fun listener => (listener, payload) := by
  refine ⟨fun bus log a run => run.snapshots, fun room action s => ?_⟩
  intro told
  have report := reports room action
  obtain ⟨same, underway, log, logged, called, run⟩ := (report.tells [] ⟨s, 0, []⟩).exists_leads
  obtain rfl : told.2.log = log := logged
  have snapshots : Snapshots s.bus told.2.log := run.snapshots
  refine ⟨same, called, ⟨underway, run⟩, snapshots, ?_⟩
  rintro event payload rfl good
  obtain ⟨more, framed⟩ := report.framed event payload rfl ⟨s, 0, []⟩ told.2 (Prod.ext good rfl)
  have ended : .ended 0 ∈ told.2.log := by
    rw [framed]
    exact List.mem_append_right _ (List.mem_singleton.mpr rfl)
  exact ⟨⟨more, framed⟩, (snapshots [] 0 event payload _ framed).2 ended⟩

/-- A listener that is called unsubscribes the next one, subscribes a third to the same event and
to another one, and emits that. The next one is called still, and the third one by the inner
emission only. Nor does it matter if an inner emission is abandoned. -/
theorem emissions_call_snapshots_of_reentry :
    let bus := ((EventBus.empty : EventBus String).subscribe "e" "a").subscribe "e" "b"
    let log : List (Happening String) :=
      [.begun 0 "e" (.int 1), .called 0 "a" (.int 1), .unsubscribed "e" "b",
        .begun 1 "e" (.int 2), .called 1 "a" (.int 2), .abandoned 1, .called 0 "b" (.int 1),
        .ended 0]
    let s := LiveBus.empty
      |>.subscribe "a" "e" [.unsubscribe "b" "e", .subscribe "c" "e" [], .subscribe "c" "f" [],
        .emit "f" (.int 2)]
      |>.subscribe "b" "e" []
    let told := outcome (tell 8 (.emit "e" (.int 1))) ⟨s, 0, []⟩
    (∃ a, Activity.Run (.idle bus) log a) ∧
      callsOf 0 log = [("a", .int 1), ("b", .int 1)] ∧
      told.1 = .ok () ∧ callsOf 0 told.2.log = [("a", .int 1), ("b", .int 1)] ∧
      callsOf 1 told.2.log = [("c", .int 2)] := by
  intro bus log s told
  have run : Activity.Run (.idle bus) log ⟨bus.unsubscribe "e" "b", 2, []⟩ :=
    .cons (.begin "e" (.int 1)) <| .cons .call <| .cons (.unsubscribe "e" "b") <|
      .cons (.begin "e" (.int 2)) <| .cons .call <| .cons .abandon <| .cons .call <|
      .cons .finish (.nil _)
  have snapshots := emissions_call_snapshots.1 bus log _ run
  have live := emissions_call_snapshots.2 8 (.emit "e" (.int 1)) s
  exact ⟨⟨_, run⟩, (snapshots [] 0 "e" (.int 1) _ rfl).2 (by simp [log]), rfl,
    (live.2.2.2.2 "e" (.int 1) rfl rfl).2, rfl⟩

end LinkerScriptEditor.LiveBus
