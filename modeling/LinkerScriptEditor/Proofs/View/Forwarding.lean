import LinkerScriptEditor.Proofs.Manager.Discretion
import LinkerScriptEditor.Proofs.View.Showing

/-!
# Forwarding events

A view is open from when it is attached until it is closed. Whatever is asked of a discreet manager,
the open views are those who are subscribed to the events that views forward, so every emission of
such an event reaches each of them once, and a view that is closed hears nothing any more.
-/

namespace LinkerScriptEditor

open Traced

/-- The event that a view has passed on, if a notice is about that. -/
def Notice.passed? (v : View) : Notice → Option (String × Datum)
  | .view id (.event name payload) => if id = v.id then some (name, payload) else none
  | _ => none

/-- What a view is to pass on of an emission. -/
def Emission.forwarded? (e : Emission) : Option (String × Datum) :=
  if e.event ∈ View.forwarded then some (e.event, e.payload) else none

namespace Manager.Request

/-- Handlers and modes that a host brings along are discreet. -/
def Discreet : Request → Prop
  | register d => d.Discreet
  | keymap call => call.Brings Workspace.Discreet
  | _ => True

/-- A request to the manager, and not to a view of it. -/
def Viewless : Request → Prop
  | attach _ | pressView .. | close _ => False
  | _ => True

def attaches? : Request → Option View
  | attach v => some v
  | _ => none

/-- The open views after a request. -/
def turn (live : List View) : Request → List View
  | attach v => live ++ [v]
  | close v => live.filter (· ≠ v)
  | _ => live

theorem speaks_perform {w : Workspace} {request : Request} (discreet : request.Discreet)
    (viewless : request.Viewless) : Preserves (Speaks w) request.perform := by
  cases request with
  | setUp => exact speaks_setUp
  | register d => exact speaks_register discreet
  | activate name => exact (speaks_activate name).discarded
  | activateForPath path => exact (speaks_activateForPath path).discarded
  | press key => exact (speaks_press key).discarded
  | runAction id => exact (speaks_runAction id).discarded
  | keymap call => exact speaks_onKeymap (Keymap.orderly_call call discreet)
  | loadDefaults replace excluded extra =>
      have handlers : ∀ a ∈ LinkerScriptMode.actions, Workspace.Discreet a.handler :=
        fun _ => LinkerScriptMode.discreet_handler
      exact speaks_onKeymap (LinkerScriptMode.orderly_load handlers replace excluded extra)
  | buffer op => exact speaks_onWorkspace (Workspace.discreet_onBuffer _)
  | indentRow row =>
      refine speaks_onWorkspace fun w => ?_
      rw [effect_discard]
      exact (Command.worked_indentRow row).speaks
  | configure change => exact speaks_onWorkspace (Workspace.discreet_onSettings _)
  | attach v => exact viewless.elim
  | pressView v key => exact viewless.elim
  | close v => exact viewless.elim

end Manager.Request

namespace View

/-- The events that a view has passed on, oldest first. -/
def received (v : View) (w : Workspace) : List (String × Datum) :=
  w.notices.filterMap (Notice.passed? v)

/-- The open views after some requests, in the order in which they were attached. -/
def opened (requests : List Manager.Request) : List View :=
  requests.foldl Manager.Request.turn []

def attached (requests : List Manager.Request) : List View :=
  requests.filterMap Manager.Request.attaches?

/-- The open views are distinct, and just they are subscribed, to what views forward. -/
structure Attending (w : Workspace) (live : List View) : Prop where
  viewers : ∀ event, w.viewers event = if event ∈ forwarded then live.map (·.listener event) else []
  once : live.Nodup

/-- A workspace comes from another by emissions. Everyone who is subscribed to one is told, and
every open view passes on what is forwarded: all of it, once each and in order. -/
structure Forwards (live : List View) (w : Workspace) (es : List Emission) (after : Workspace) :
    Prop where
  emits : w.Emits es after
  audience : ∀ e ∈ es, e.audience.filter Listener.isView =
    if e.event ∈ forwarded then live.map (·.listener e.event) else []
  heard : after.heard = w.heard ++ es.flatMap Emission.notices
  received : ∀ v : View,
    v.received after = v.received w ++ if v ∈ live then es.filterMap Emission.forwarded? else []

variable {v : View} {live : List View} {w after : Workspace} {es : List Emission}

/-- Log lines pass nothing on. -/
theorem received_eq (v : View) (w : Workspace) :
    v.received w = w.heard.filterMap (Notice.passed? v) := by
  rw [received, Workspace.heard, List.filterMap_filter]
  apply List.filterMap_congr
  intro notice mem
  rcases notice with _ | ⟨id, _ | _ | _ | _⟩ <;> rfl

theorem passed?_listener (v u : View) (event : String) (payload : Datum) :
    ((u.listener event).notice payload).passed? v =
      if u = v then some (event, payload) else none := by
  cases u
  cases v
  simp only [listener, Listener.notice, Notice.passed?, mk.injEq]

/-- Of distinct views, just the one itself passes an event on for a view. -/
theorem filterMap_once (once : live.Nodup) (passed : String × Datum) :
    live.filterMap (fun u => if u = v then some passed else none) =
      if v ∈ live then [passed] else [] := by
  induction live with
  | nil => rfl
  | cons u rest ih =>
      obtain ⟨fresh, others⟩ := List.nodup_cons.mp once
      have later := ih others
      rw [List.filterMap_cons, later]
      by_cases same : u = v
      · subst same
        simp [fresh]
      · simp [same, Ne.symm same]

/-- An emission reaches each open view once, if it is forwarded. -/
theorem filterMap_notices {e : Emission} (once : live.Nodup)
    (audience : e.audience.filter Listener.isView =
      if e.event ∈ forwarded then live.map (·.listener e.event) else []) (v : View) :
    e.notices.filterMap (Notice.passed? v) =
      if v ∈ live then e.forwarded?.toList else [] := by
  have views : e.notices.filterMap (Notice.passed? v) =
      (e.audience.filter Listener.isView).filterMap fun l => (l.notice e.payload).passed? v := by
    rw [Emission.notices, List.filterMap_map, List.filterMap_filter]
    apply List.filterMap_congr
    intro l mem
    cases l <;> rfl
  rw [views, audience, Emission.forwarded?]
  split
  · rw [List.filterMap_map]
    simp only [Function.comp_def, passed?_listener]
    exact filterMap_once once _
  · simp

theorem filterMap_flatMap_notices (once : live.Nodup)
    (audience : ∀ e ∈ es, e.audience.filter Listener.isView =
      if e.event ∈ forwarded then live.map (·.listener e.event) else []) (v : View) :
    (es.flatMap Emission.notices).filterMap (Notice.passed? v) =
      if v ∈ live then es.filterMap Emission.forwarded? else [] := by
  induction es with
  | nil => simp
  | cons e rest ih =>
      obtain ⟨first, others⟩ := List.forall_mem_cons.mp audience
      rw [List.flatMap_cons, List.filterMap_append, filterMap_notices once first, ih others]
      split
      · rw [List.filterMap_cons]
        cases e.forwarded? <;> rfl
      · rfl

theorem Attending.forwards (attending : Attending w live) (emits : w.Emits es after) :
    Forwards live w es after := by
  have audience : ∀ e ∈ es, e.audience.filter Listener.isView =
      if e.event ∈ forwarded then live.map (·.listener e.event) else [] := by
    intro e mem
    rw [emits.audience e mem, attending.viewers]
  refine ⟨emits, audience, emits.heard, fun v => ?_⟩
  rw [received_eq, received_eq, emits.heard, List.filterMap_append,
    filterMap_flatMap_notices attending.once audience]

theorem Attending.emits (attending : Attending w live) (emits : w.Emits es after) :
    Attending after live where
  viewers := fun event => (emits.viewers event).trans (attending.viewers event)
  once := attending.once

end View

end LinkerScriptEditor
