import LinkerScriptEditor.Proofs.Workspace.Frame

/-!
# Announcements of mode switches

The bus announces that a mode is entered and that it is left. Where one observer watches either
event, its notices are the announcements so far. They pair if they alternate, beginning with an
entry, and every exit is from the mode that was entered before it.
-/

namespace LinkerScriptEditor

def switchEvents : List String := ["mode.enter", "mode.exit"]

/-- The switch that a listener watches for. -/
def Listener.switch? : Listener → Option String
  | .observer event => if event ∈ switchEvents then some event else none
  | .view .. => none

/-- The switch that a notice tells of. -/
def Notice.switch? : Notice → Option (String × Datum)
  | .event name payload => if name ∈ switchEvents then some (name, payload) else none
  | .view .. => none

namespace Workspace

/-- The switches that observers were told of, oldest first. -/
def announcements (w : Workspace) : List (String × Datum) := w.notices.filterMap Notice.switch?

/-- Either switch has one observer of its own, and other events have none of them. -/
def Watched (w : Workspace) : Prop :=
  ∀ event, (w.bus.listeners event).filterMap Listener.switch? =
    if event ∈ switchEvents then [event] else []

/-- A part of the host does its work and takes no part in the switching of modes: it leaves alone
the modes and the services that modes share, announces no switch, and lets those watch who watched
before. -/
structure Quiet (w after : Workspace) : Prop where
  services : ∀ name ∈ [Service.keymapName, Service.trackerName],
    after.service? name = w.service? name
  modes : after.modes = w.modes
  active : after.active = w.active
  watched : w.Watched → after.Watched
  announcements : w.Watched → after.announcements = w.announcements

variable {w middle after : Workspace}

theorem Quiet.refl (w : Workspace) : w.Quiet w := ⟨fun _ _ => rfl, rfl, rfl, id, fun _ => rfl⟩

theorem Quiet.trans (first : w.Quiet middle) (second : middle.Quiet after) : w.Quiet after where
  services := fun name mem => (second.services name mem).trans (first.services name mem)
  modes := second.modes.trans first.modes
  active := second.active.trans first.active
  watched := second.watched ∘ first.watched
  announcements := fun watched =>
    (second.announcements (first.watched watched)).trans (first.announcements watched)

theorem quiet_buffer (w : Workspace) (b : Buffer) : w.Quiet { w with buffer := b } :=
  ⟨fun _ _ => rfl, rfl, rfl, id, fun _ => rfl⟩

theorem announcements_note (notice : Notice) (w : Workspace) :
    (w.note notice).announcements = w.announcements ++ notice.switch?.toList := by
  rw [note, announcements, List.filterMap_append, List.filterMap_cons, List.filterMap_nil]
  cases notice.switch? <;> rfl

/-- A listener is told of a switch just if it watches for it. -/
theorem announcements_tell (payload : Datum) (listener : Listener) (w : Workspace) :
    (w.tell payload listener).announcements =
      w.announcements ++ (listener.switch?.map (·, payload)).toList := by
  cases listener with
  | observer event =>
      rw [tell, announcements_note, Notice.switch?, Listener.switch?]
      split <;> rfl
  | view id event =>
      rw [tell, noteView, noteView, announcements_note, announcements_note, List.append_assoc]
      rfl

theorem announcements_foldl_tell (payload : Datum) (listeners : List Listener) (w : Workspace) :
    (listeners.foldl (fun w listener => w.tell payload listener) w).announcements =
      w.announcements ++ (listeners.filterMap Listener.switch?).map (·, payload) := by
  induction listeners generalizing w with
  | nil => simp
  | cons listener rest ih =>
      rw [List.foldl_cons, ih, announcements_tell, List.append_assoc, List.filterMap_cons]
      cases listener.switch? <;> rfl

/-- Where the switches are watched, an emission is announced just if it is a switch. -/
theorem Watched.announcements_emitted (watched : w.Watched) (event : String) (payload : Datum) :
    (w.emitted event payload).announcements =
      w.announcements ++ if event ∈ switchEvents then [(event, payload)] else [] := by
  rw [emitted, announcements_foldl_tell, watched event]
  split <;> rfl

theorem bus_emitted (event : String) (payload : Datum) (w : Workspace) :
    (w.emitted event payload).bus = w.bus := by
  obtain ⟨notices, same⟩ := emitted_eq event payload w
  rw [same]

theorem Watched.of_bus (watched : w.Watched) (same : after.bus = w.bus) : after.Watched := by
  intro event
  rw [same]
  exact watched event

/-- An emission that is no switch is quiet. -/
theorem quiet_emitted (event : String) (other : event ∉ switchEvents)
    (payload : Datum) (w : Workspace) : w.Quiet (w.emitted event payload) := by
  obtain ⟨notices, same⟩ := emitted_eq event payload w
  refine ⟨?_, ?_, ?_, ?_, ?_⟩
  · intro name _
    rw [same]
    rfl
  · rw [same]
  · rw [same]
  · exact fun watched => watched.of_bus (bus_emitted event payload w)
  · intro watched
    rw [watched.announcements_emitted, if_neg other, List.append_nil]

/-- Announcements that pair, and the mode that is entered at their end. -/
inductive Paired : List (String × Datum) → Option String → Prop
  | start : Paired [] none
  | enter {log : List (String × Datum)} (paired : Paired log none) (name : String) :
      Paired (log ++ [("mode.enter", .str name)]) (some name)
  | exit {log : List (String × Datum)} {name : String} (paired : Paired log (some name)) :
      Paired (log ++ [("mode.exit", .str name)]) none

/-- The switches are watched, and those that were announced pair. -/
structure Told (w : Workspace) (current : Option String) : Prop where
  watched : w.Watched
  paired : Paired w.announcements current

variable {current : Option String} {name : String}

theorem Told.quiet (told : w.Told current) (quiet : w.Quiet after) : after.Told current where
  watched := quiet.watched told.watched
  paired := by
    rw [quiet.announcements told.watched]
    exact told.paired

/-- Who watches has been told the same as long as neither the bus nor the notices change. -/
theorem Told.congr (told : w.Told current) (bus : after.bus = w.bus)
    (notices : after.notices = w.notices) : after.Told current where
  watched := told.watched.of_bus bus
  paired := by
    rw [announcements, notices]
    exact told.paired

theorem Told.enter (told : w.Told none) (name : String) :
    (w.emitted "mode.enter" (.str name)).Told (some name) where
  watched := told.watched.of_bus (bus_emitted _ _ w)
  paired := by
    rw [told.watched.announcements_emitted, if_pos (by decide)]
    exact told.paired.enter name

theorem Told.exit (told : w.Told (some name)) :
    (w.emitted "mode.exit" (.str name)).Told none where
  watched := told.watched.of_bus (bus_emitted _ _ w)
  paired := by
    rw [told.watched.announcements_emitted, if_pos (by decide)]
    exact told.paired.exit

/-- The workspace with an observer for either switch. -/
def watching (w : Workspace) : Workspace :=
  switchEvents.foldl (fun w event => w.subscribe event (.observer event)) w

theorem watched_watching (b : Buffer) (s : Settings) : (watching (ofBuffer b s)).Watched := by
  have bus : (watching (ofBuffer b s)).bus =
      (EventBus.empty.subscribe "mode.enter" (.observer "mode.enter")).subscribe "mode.exit"
        (.observer "mode.exit") := rfl
  intro event
  rw [bus, EventBus.listeners_subscribe]
  split
  · next exits => subst exits; rfl
  · next stays =>
      rw [EventBus.listeners_subscribe]
      split
      · next enters => subst enters; rfl
      · next other => simp [switchEvents, Ne.symm stays, Ne.symm other, EventBus.listeners,
          EventBus.empty, OrderedMap.get?]

end Workspace

end LinkerScriptEditor
