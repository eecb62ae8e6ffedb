import LinkerScriptEditor.Proofs.Manager.Courtesy
import LinkerScriptEditor.Proofs.Manager.Registration

/-!
# Switching modes

A manager is steady if it is tidy for the active mode and the announced switches pair up to that
mode. With courteous descriptors every call of a manager keeps it steady, so over any list of calls
entries and exits alternate, each mode is made at most once, and the comment tracker and the pending
keys of the linker script mode are there only while it is active.
-/

namespace LinkerScriptEditor.Manager

open Traced Workspace

structure Steady (m : Manager) : Prop where
  tidy : m.Tidy m.workspace.active
  told : m.workspace.Told m.workspace.active

/-- A steady manager comes from another one, and modes that have been used stay. -/
structure Leads (m after : Manager) : Prop where
  steady : after.Steady
  used : ∀ name, (OrderedMap.get? name m.workspace.modes).isSome →
    (OrderedMap.get? name after.workspace.modes).isSome

variable {m : Manager} {name : String} {d : Descriptor}

theorem Leads.refl (steady : m.Steady) : m.Leads m := ⟨steady, fun _ used => used⟩

theorem Leads.trans {middle after : Manager} (first : m.Leads middle)
    (second : middle.Leads after) : m.Leads after where
  steady := second.steady
  used := fun name used => second.used name (first.used name used)

theorem Steady.quiet (steady : m.Steady) {w : Workspace} (quiet : m.workspace.Quiet w) :
    m.Leads { m with workspace := w } where
  steady := by
    constructor
    · change Tidy _ w.active
      rw [quiet.active]
      exact steady.tidy.quiet quiet
    · change w.Told w.active
      rw [quiet.active]
      exact steady.told.quiet quiet
  used := (Unannounced.of_quiet quiet).used

/-- The active mode is the one that calls itself by the name it is active under. -/
theorem Steady.activeMode (steady : m.Steady) (active : m.workspace.active = some name) :
    ∃ d state, OrderedMap.get? name m.descriptors = some d ∧
      OrderedMap.get? name m.workspace.modes = some state ∧
      m.workspace.activeMode? = some state ∧ state.name = name := by
  obtain ⟨d, state, known, used⟩ := steady.tidy.current name active
  refine ⟨d, state, known, used, ?_, steady.tidy.modes name state used⟩
  rw [activeMode?, active]
  exact used

theorem Steady.activeName (steady : m.Steady) :
    m.workspace.activeName? = m.workspace.active := by
  rw [activeName?]
  cases active : m.workspace.active with
  | none => rw [activeMode?, active]; rfl
  | some name =>
      obtain ⟨d, state, -, -, mode, named⟩ := steady.activeMode active
      rw [mode, Option.map_some, named]

theorem effect_activate_of_unknown (unknown : OrderedMap.get? name m.descriptors = none) :
    effect (activate name) m = (.error (.unknownMode name), m) := by
  rw [activate, effect_bind_of_ok (effect_get m), descriptor, unknown]
  rfl

theorem Steady.activate_active (steady : m.Steady) (active : m.workspace.active = some name) :
    effect (activate name) m = (.ok name, m) := by
  obtain ⟨d, state, known, -⟩ := steady.activeMode active
  rw [activate, effect_bind_of_ok (effect_get m), descriptor_eq known,
    effect_bind_of_ok (effect_ofExcept _ _), effect_bind_of_ok (effect_get m)]
  dsimp only
  rw [steady.activeName, active, if_pos rfl, effect_pure]

/-- Makes a mode the active one when no mode is. -/
def arrive (d : Descriptor) (name : String) (previous : Option String) :
    Traced Manager String := do
  let state ← instantiate d
  changeWorkspace ({ · with active := some name })
  enter name previous
  onWorkspace (Workspace.emit "mode.enter" (.str name))
  Traced.event .info "mode.switch" [("mode", .str name)]
  return state.name

theorem Tidy.arrive (tidy : m.Tidy none) (told : m.workspace.Told none)
    (known : OrderedMap.get? name m.descriptors = some d) (previous : Option String) :
    ∃ after, effect (arrive d name previous) m = (.ok name, after) ∧
      after.workspace.active = some name ∧ m.Leads after := by
  obtain ⟨state, made, instantiated, named, used, ready, before⟩ := tidy.instantiate known
  let active : Workspace := { made with active := some name }
  have ready : Tidy { m with workspace := active } none := ready.congr (fun _ _ => rfl) rfl
  obtain ⟨w, entered, remains, opens, during⟩ := ready.enter known used previous
  have changed : effect (changeWorkspace ({ · with active := some name }))
      { m with workspace := made } = (.ok (), { m with workspace := active }) := rfl
  have announced : effect (onWorkspace (emit "mode.enter" (.str name))) { m with workspace := w } =
      (.ok (), { m with workspace := w.emitted "mode.enter" (.str name) }) :=
    effect_onWorkspace (effect_emit _ _ w)
  have toldActive : active.Told none := (before.told none told).congr rfl rfl
  obtain ⟨notices, same⟩ := emitted_eq "mode.enter" (.str name) w
  have arrives : (w.emitted "mode.enter" (.str name)).active = some name := by
    rw [same]
    exact remains
  refine ⟨{ m with workspace := w.emitted "mode.enter" (.str name) }, ?_, arrives, ⟨?_, ?_⟩, ?_⟩
  · rw [Manager.arrive, effect_bind_of_ok instantiated, effect_bind_of_ok changed,
      effect_bind_of_ok entered, effect_bind_of_ok announced,
      effect_bind_of_ok (effect_event _ _ _ _), effect_pure, named]
  · dsimp only
    rw [arrives]
    exact opens.emitted "mode.enter" (.str name)
  · dsimp only
    rw [arrives]
    exact (during.told none toldActive).enter name
  · intro other known
    dsimp only
    rw [same]
    exact during.used other (before.used other known)

/-- A mode that is not active is entered once the active one is left. -/
theorem Steady.activate_other (steady : m.Steady)
    (known : OrderedMap.get? name m.descriptors = some d) (other : m.workspace.active ≠ some name) :
    ∃ after, effect (activate name) m = (.ok name, after) ∧
      after.workspace.active = some name ∧ m.Leads after := by
  have tidy := steady.tidy
  have told := steady.told
  rw [activate, effect_bind_of_ok (effect_get m), descriptor_eq known,
    effect_bind_of_ok (effect_ofExcept _ _), effect_bind_of_ok (effect_get m)]
  dsimp only
  rw [steady.activeName, if_neg other]
  cases active : m.workspace.active with
  | none =>
      rw [active] at tidy told
      exact tidy.arrive told known none
  | some old =>
      rw [active] at tidy told
      obtain ⟨w, left, closes, during⟩ := tidy.leave (some name)
      have announced : effect (onWorkspace (emit "mode.exit" (.str old)))
          { m with workspace := w } =
            (.ok (), { m with workspace := w.emitted "mode.exit" (.str old) }) :=
        effect_onWorkspace (effect_emit _ _ w)
      have idle := closes.emitted "mode.exit" (.str old)
      obtain ⟨after, arrived, stands, leads⟩ :=
        idle.arrive (during.told _ told).exit known (some old)
      obtain ⟨notices, same⟩ := emitted_eq "mode.exit" (.str old) w
      refine ⟨after, ?_, stands, leads.steady, fun other used => leads.used other ?_⟩
      · dsimp only
        rw [effect_bind_of_ok left, effect_bind_of_ok announced]
        exact arrived
      · dsimp only
        rw [same]
        exact during.used other used

theorem Steady.activate (steady : m.Steady) (name : String) :
    m.Leads (effect (activate name) m).2 := by
  cases known : OrderedMap.get? name m.descriptors with
  | none =>
      rw [effect_activate_of_unknown known]
      exact .refl steady
  | some d =>
      by_cases active : m.workspace.active = some name
      · rw [steady.activate_active active]
        exact .refl steady
      · obtain ⟨after, activated, -, leads⟩ := steady.activate_other known active
        rw [activated]
        exact leads

theorem Steady.activateForPath (steady : m.Steady) (path : String) :
    m.Leads (effect (activateForPath path) m).2 := by
  rw [Manager.activateForPath, effect_bind_of_ok (effect_get m)]
  cases m.descriptorForPath? path with
  | none => exact .refl steady
  | some d =>
      change m.Leads (effect (some <$> Manager.activate d.name) m).2
      rw [effect_map]
      exact steady.activate d.name

/-- Keys that are pending in the linker script mode disturb nothing while it is active. -/
theorem Steady.pend (steady : m.Steady) (inMode : m.InMode) (keys : List String) :
    m.Leads (m.pend keys) := by
  have opened : m.Opened m.workspace.active := ⟨inMode.active, inMode.behaviour⟩
  obtain ⟨tidy, unannounced⟩ :=
    steady.tidy.putMode ⟨LinkerScriptMode.name, keys⟩ rfl (.inr ⟨rfl, opened⟩)
  exact ⟨⟨tidy, unannounced.told _ steady.told⟩, unannounced.used⟩

theorem Steady.handled (steady : m.Steady) (inMode : m.InMode) {key : KeyPress}
    {ran : Except Fault KeyResult × Manager} (handled : Handled key m ran) : m.Leads ran.2 := by
  have idle := steady.pend inMode []
  cases handled with
  | ran runs run =>
      obtain ⟨id, listed⟩ := Keymap.mem_of_bound? runs
      have polite := steady.tidy.actions _ listed (m.pend []).workspace
      rw [run] at polite
      exact idle.trans (idle.steady.quiet polite)
  | waits => exact steady.pend inMode _
  | @typed _ b _ _ run => exact idle.trans (idle.steady.quiet (quiet_buffer _ b))
  | left => exact idle
  | lost => exact steady.pend inMode _

/-- What the active mode makes of a key. -/
theorem Steady.responds (steady : m.Steady) (active : m.workspace.active = some name)
    {state : ModeState} (known : OrderedMap.get? name m.descriptors = some d)
    (used : OrderedMap.get? name m.workspace.modes = some state)
    (mode : m.workspace.activeMode? = some state) (named : state.name = name) (key : KeyPress) :
    m.Leads (effect (match m.behaviour name with
      | .linkerScript => pressLinkerScript name state key
      | .host host => onWorkspace (host.press key)) m).2 := by
  obtain ⟨title, courteous⟩ := steady.tidy.descriptors name d known
  have suits := courteous.mode
  have behaves := behaviour_eq known
  rw [behaves]
  cases behaviour : d.behaviour with
  | linkerScript =>
      rw [behaviour] at suits behaves
      obtain rfl : name = LinkerScriptMode.name := Eq.trans title.symm suits
      obtain ⟨own, pending⟩ := state
      cases named
      exact steady.handled ⟨active, ⟨pending, used⟩, behaves⟩
        (InMode.handled ⟨active, ⟨pending, used⟩, behaves⟩ mode key)
  | host host =>
      rw [behaviour] at suits
      exact steady.quiet (suits.2.press key m.workspace)

/-- Then the mode is switched, if the key asks for it. -/
theorem Leads.switch {ran : Except Fault KeyResult × Manager} :
    m.Leads ran.2 → m.Leads (match ran with
      | (.error fault, after) => (.error fault, after)
      | (.ok result, after) => match result.switchTo.filter (· != "") with
        | none => (.ok result, after)
        | some next =>
          let switched := effect (activate next) after
          (switched.1.map fun _ => result, switched.2) : Except Fault KeyResult × Manager).2 := by
  intro responds
  rcases ran with ⟨fault | result, after⟩
  · exact responds
  · dsimp only
    cases result.switchTo.filter (· != "") with
    | none => exact responds
    | some next => exact responds.trans (responds.steady.activate next)

theorem Steady.press (steady : m.Steady) (key : KeyPress) :
    m.Leads (effect (press key) m).2 := by
  cases active : m.workspace.active with
  | none =>
      rw [Manager.press, effect_bind_of_ok (effect_get m), active]
      exact .refl steady
  | some name =>
      obtain ⟨d, state, known, used, mode, named⟩ := steady.activeMode active
      rw [effect_press active mode key]
      exact Leads.switch (steady.responds active known used mode named key)

/-- A mode becomes known. The linker script mode is not open before it is known. -/
theorem Tidy.describe {current : Option String} (tidy : m.Tidy current)
    (unknown : OrderedMap.get? d.name m.descriptors = none) (courteous : d.Courteous) :
    Tidy { m with descriptors := OrderedMap.put d.name d m.descriptors } current := by
  have known : ∀ {name : String} {other : Descriptor},
      OrderedMap.get? name m.descriptors = some other →
        OrderedMap.get? name (OrderedMap.put d.name d m.descriptors) = some other := by
    intro name other found
    rw [OrderedMap.get?_put, if_neg, found]
    rintro rfl
    cases unknown.symm.trans found
  have opened : Opened { m with descriptors := OrderedMap.put d.name d m.descriptors } current ↔
      m.Opened current := by
    apply and_congr_right
    rintro rfl
    obtain ⟨other, state, found, -⟩ := tidy.current _ rfl
    have before := behaviour_eq found
    have after : Manager.behaviour
        { m with descriptors := OrderedMap.put d.name d m.descriptors } LinkerScriptMode.name =
          other.behaviour := behaviour_eq (known found)
    rw [after, before]
  refine ⟨tidy.keymap, tidy.tracker.trans opened.symm, tidy.distinct, tidy.modes, ?_, ?_, ?_,
    tidy.actions⟩
  · intro name state found
    rw [opened]
    exact tidy.pending name state found
  · intro name same
    obtain ⟨other, state, found, used⟩ := tidy.current name same
    exact ⟨other, state, known found, used⟩
  · intro name other found
    dsimp only at found
    rw [OrderedMap.get?_put] at found
    split at found
    · next same =>
        cases found
        exact ⟨same, courteous⟩
    · exact tidy.descriptors name other found

theorem Steady.register (steady : m.Steady) (courteous : d.Courteous) :
    m.Leads (effect (register d) m).2 := by
  cases name : OrderedMap.get? d.name m.descriptors with
  | some other =>
      rw [effect_register_of_known (by rw [name]; rfl)]
      exact .refl steady
  | none =>
      rw [effect_register_of_unknown name]
      have actions := Keymap.actions_registerBindings d.bindings (m.keymap.putActions d.actions)
      generalize effect (forIn d.bindings PUnit.unit _) (m.keymap.putActions d.actions) = ran
        at actions ⊢
      have polite : ∀ entry ∈ ran.2.actions, Polite entry.2.handler := by
        intro entry mem
        rw [actions] at mem
        rcases Keymap.mem_actions_putActions d.actions mem with own | before
        · exact courteous.actions _ own
        · exact steady.tidy.actions entry before
      have tidy : Tidy { m with keymap := ran.2 } m.workspace.active :=
        { steady.tidy with actions := polite }
      rcases ran with ⟨fault | done, k⟩
      · exact ⟨⟨tidy, steady.told⟩, fun _ used => used⟩
      · exact ⟨⟨tidy.describe name courteous, steady.told⟩, fun _ used => used⟩

/-- What a host asks of a manager. -/
inductive Call
  | register (d : Descriptor)
  | activate (name : String)
  | activateForPath (path : String)
  | press (key : KeyPress)

/-- The manager after a call, whether it went well or not. -/
def Call.perform : Call → Manager → Manager
  | register d, m => (effect (Manager.register d) m).2
  | activate name, m => (effect (Manager.activate name) m).2
  | activateForPath path, m => (effect (Manager.activateForPath path) m).2
  | press key, m => (effect (Manager.press key) m).2

def after (m : Manager) (calls : List Call) : Manager :=
  calls.foldl (fun m call => call.perform m) m

/-- The modes that are made by calls, in the order of the calls: those that are there after a call
and were not there before it. -/
def made (m : Manager) : List Call → List String
  | [] => []
  | call :: rest =>
    ((OrderedMap.keys (call.perform m).workspace.modes).filter fun name =>
      (OrderedMap.get? name m.workspace.modes).isNone) ++ made (call.perform m) rest

/-- No mode has been used, the switches are watched from the beginning, and the keymap is where the
linker script mode looks for it. -/
structure Fresh (m : Manager) : Prop where
  descriptors : m.descriptors = []
  modes : m.workspace.modes = []
  active : m.workspace.active = none
  watched : m.workspace.Watched
  announcements : m.workspace.announcements = []
  keymap : (m.workspace.service? Service.keymapName).any Service.isKeymap = true
  tracker : m.workspace.service? Service.trackerName ≠ some (.tracker LinkerScriptMode.name)
  actions : ∀ entry ∈ m.keymap.actions, Polite entry.2.handler

theorem Fresh.steady (fresh : m.Fresh) : m.Steady where
  tidy := by
    rw [fresh.active]
    refine ⟨fresh.keymap, iff_of_false fresh.tracker nofun, ?_, ?_, ?_, nofun, ?_, fresh.actions⟩
    · rw [fresh.modes]
      exact List.nodup_nil
    · rw [fresh.modes]
      nofun
    · rw [fresh.modes]
      nofun
    · rw [fresh.descriptors]
      nofun
  told := by
    rw [fresh.active]
    refine ⟨fresh.watched, ?_⟩
    rw [fresh.announcements]
    exact .start

theorem Steady.perform (steady : m.Steady) {call : Call}
    (courteous : ∀ d, call = .register d → d.Courteous) : m.Leads (call.perform m) := by
  cases call with
  | register d => exact steady.register (courteous d rfl)
  | activate name => exact steady.activate name
  | activateForPath path => exact steady.activateForPath path
  | press key => exact steady.press key

theorem Steady.after (steady : m.Steady) {calls : List Call}
    (courteous : ∀ d, .register d ∈ calls → d.Courteous) : m.Leads (m.after calls) := by
  induction calls generalizing m with
  | nil => exact .refl steady
  | cons call rest ih =>
      have first : m.Leads (call.perform m) :=
        steady.perform fun d same => courteous d (same ▸ List.mem_cons_self)
      exact first.trans (ih first.steady fun d mem => courteous d (List.mem_cons_of_mem call mem))

/-- No mode is made twice, and none that has been used before. -/
theorem Steady.made_nodup (steady : m.Steady) {calls : List Call}
    (courteous : ∀ d, .register d ∈ calls → d.Courteous) :
    (m.made calls).Nodup ∧
      ∀ name ∈ m.made calls, OrderedMap.get? name m.workspace.modes = none := by
  induction calls generalizing m with
  | nil => exact ⟨List.nodup_nil, nofun⟩
  | cons call rest ih =>
      have first : m.Leads (call.perform m) :=
        steady.perform fun d same => courteous d (same ▸ List.mem_cons_self)
      obtain ⟨distinct, later⟩ :=
        ih first.steady fun d mem => courteous d (List.mem_cons_of_mem call mem)
      constructor
      · refine List.nodup_append.mpr ⟨first.steady.tidy.distinct.filter _, distinct, ?_⟩
        rintro name now _ again rfl
        exact OrderedMap.get?_eq_none_iff.mp (later name again) (List.mem_filter.mp now).1
      · intro name mem
        rcases List.mem_append.mp mem with now | again
        · exact Option.isNone_iff_eq_none.mp (List.mem_filter.mp now).2
        · refine Option.eq_none_iff_forall_ne_some.mpr fun state used => ?_
          have still := first.used name (by rw [used]; rfl)
          rw [later name again] at still
          cases still

/-- A new manager is fresh if somebody watches. -/
theorem fresh_ofWorkspace (b : Buffer) (s : Settings) :
    Fresh (ofWorkspace (watching (.ofBuffer b s))) where
  descriptors := rfl
  modes := rfl
  active := rfl
  watched := (watched_watching b s).of_bus rfl
  announcements := rfl
  keymap := rfl
  tracker := nofun
  actions := nofun

end LinkerScriptEditor.Manager
