import LinkerScriptEditor.Proofs.Command.Spans
import LinkerScriptEditor.Proofs.Keymap.Installing
import LinkerScriptEditor.Proofs.Manager.Session
import LinkerScriptEditor.View

/-!
# Spans of managers

The spans of modes, of the keymap, of actions and of edits lie one inside the other. Whatever is
asked of a manager, its log is nested, and a fault is written once for each span that it crosses.
The handlers of hosts may fail anywhere; they are only expected to leave their own spans in order.
-/

namespace LinkerScriptEditor

open Traced

namespace Keymap

variable {η : Type} {holds : η → Prop}

/-- All handlers have a property. -/
def Provides (holds : η → Prop) (k : Keymap η) : Prop := ∀ entry ∈ k.actions, holds entry.2.handler

theorem Provides.putAction {k : Keymap η} (provides : k.Provides holds) {a : Action η}
    (good : holds a.handler) : (k.putAction a).Provides holds := by
  intro entry mem
  rcases OrderedMap.mem_put mem with rfl | mem
  · exact good
  · exact provides entry mem

theorem Provides.putBinding {k : Keymap η} (provides : k.Provides holds) (b : Binding)
    (others : List Binding) : (k.putBinding b others).Provides holds := by
  rw [Provides, actions_putBinding]
  exact provides

theorem Provides.action {k : Keymap η} (provides : k.Provides holds) {id : String} {a : Action η}
    (found : k.action id = .ok a) : holds a.handler :=
  provides _ (mem_of_action found)

theorem orderly_registerAction {a : Action η} (good : holds a.handler) (replace : Bool) :
    Orderly (Provides holds) (registerAction a replace) fun _ => True := by
  refine Orderly.of_get.bind fun k provides => Orderly.within ?_
  split
  · exact .of_fail _
  · exact .of_set (provides.putAction good)

theorem orderly_registerBinding (b : Binding) (replace : Bool) :
    Orderly (Provides holds) (registerBinding b replace) fun _ => True := by
  refine Orderly.of_get.bind fun k provides => Orderly.span ?_
  split
  · exact (Orderly.annotate (Provides holds) _ _).bind fun _ _ => .of_fail _
  · refine (Orderly.of_ofExcept fun _ _ => trivial).bind fun others _ => ?_
    dsimp only
    split
    · exact (Orderly.annotate (Provides holds) _ _).bind fun _ _ => .of_fail _
    · split
      · exact .of_fail _
      · exact .inside (.of_set (provides.putBinding b others))

/-- An action that keys lead to is one of the keymap. -/
theorem orderly_resolve (mode : String) (tokens : List String) :
    Orderly (Provides holds) (resolve mode tokens) fun r =>
      ∀ b a consumed, r = .found b a consumed → holds a.handler := by
  refine Orderly.of_get.bind fun k provides => Orderly.span ?_
  split
  · refine (Orderly.of_ofExcept fun _ _ => trivial).bind fun b _ => ?_
    refine (Orderly.annotate (Provides holds) _ _).bind fun _ _ => ?_
    refine (Orderly.of_ofExcept fun a found => provides.action found).bind fun a good => ?_
    refine .of_pure ?_
    rintro _ _ _ ⟨⟩
    exact good
  · split
    · exact (Orderly.annotate (Provides holds) _ _).bind fun _ _ => .of_pure nofun
    · exact (Orderly.annotate (Provides holds) _ _).bind fun _ _ => .of_pure nofun

/-- The handlers that a call brings have a property. -/
def Call.Brings (holds : η → Prop) : Call η → Prop
  | .registerAction a _ => holds a.handler
  | _ => True

theorem orderly_call (call : Call η) (brings : call.Brings holds) :
    Orderly (Provides holds) call.perform fun _ => True := by
  cases call with
  | registerAction a replace => exact orderly_registerAction brings replace
  | registerBinding b replace => exact orderly_registerBinding b replace
  | unregisterBinding id =>
      refine .of_modify fun k provides => ?_
      rw [unregisterBinding]
      split
      · exact provides
      · exact provides
  | detectConflicts b =>
      refine Orderly.of_get.bind fun k provides => ?_
      exact (Orderly.of_ofExcept fun _ _ => trivial).discarded
  | resolve mode tokens => exact (orderly_resolve mode tokens).discarded

end Keymap

namespace Settings

theorem spansNest_setUnit (value : Datum) : SpansNest (setUnit value) := by
  cases value with
  | int n =>
      change SpansNest (if 0 < n then _ else _)
      split
      · exact .silently (fun _ => rfl) fun _ => spansNest_event _ _ _
      · exact spansNest_of_silent fun _ => rfl
  | _ => exact spansNest_of_silent fun _ => rfl

theorem spansNest_setStyle (value : Datum) : SpansNest (setStyle value) := by
  rw [setStyle]
  split
  · exact .silently (fun _ => rfl) fun _ => spansNest_event _ _ _
  · exact spansNest_of_silent fun _ => rfl

theorem Change.spansNest_make (change : Change) : SpansNest change.make := by
  cases change with
  | unit value => exact spansNest_setUnit value
  | style value => exact spansNest_setStyle value
  | resetUnit => exact spansNest_of_silent fun _ => rfl
  | resetStyle => exact spansNest_of_silent fun _ => rfl
  | environment name value =>
      refine .silently (fun _ => rfl) fun s => ?_
      exact .silently (fun _ => rfl) fun environment => spansNest_of_silent fun _ => rfl

end Settings

/-- A mode of the host's leaves its own spans in order. -/
structure HostMode.Tracked (host : HostMode) : Prop where
  enter : ∀ previous, SpansNest (host.enter previous)
  leave : ∀ next, SpansNest (host.leave next)
  press : ∀ key, SpansNest (host.press key)

def Behaviour.Tracked : Behaviour → Prop
  | .linkerScript => True
  | .host mode => mode.Tracked

structure Descriptor.Tracked (d : Descriptor) : Prop where
  behaviour : d.behaviour.Tracked
  actions : ∀ a ∈ d.actions, SpansNest a.handler

namespace LinkerScriptMode

theorem spansNest_handler {a : Action Handler} (mem : a ∈ actions) : SpansNest a.handler := by
  simp only [actions, List.mem_cons, List.not_mem_nil, or_false] at mem
  rcases mem with rfl | rfl | rfl | rfl | rfl | rfl | rfl | rfl | rfl | rfl
  · exact Command.spansNest_indentLine.map
  · exact Command.spansNest_newlineAndIndent.map
  · exact Command.spansNest_indentRegion.map
  · exact Command.spansNest_deleteBackward.map
  · exact (Command.spansNest_travel _ _).map
  · exact (Command.spansNest_travel _ _).map
  · exact (Command.spansNest_moveCursor .left).map
  · exact (Command.spansNest_moveCursor .right).map
  · exact (Command.spansNest_moveCursor .up).map
  · exact (Command.spansNest_moveCursor .down).map

theorem tracked_descriptor : descriptor.Tracked := ⟨trivial, fun _ mem => spansNest_handler mem⟩

theorem orderly_load {holds : Handler → Prop} (good : ∀ a ∈ actions, holds a.handler)
    (replace : Bool) (excluded : List String) (extra : List Binding) :
    Orderly (Keymap.Provides holds) (load replace excluded extra) fun _ => True := by
  refine (Orderly.of_forIn fun a mem => ?_).bind fun _ _ => ?_
  · exact (Keymap.orderly_registerAction (good _ mem) replace).bind
      fun _ _ => .of_pure trivial
  refine (Orderly.of_forIn fun b _ => ?_).bind fun _ _ => ?_
  · split
    · exact (Keymap.orderly_registerBinding b replace).bind fun _ _ => .of_pure trivial
    · exact .of_pure trivial
  refine (Orderly.of_forIn fun b _ => ?_).bind fun _ _ => .of_pure trivial
  exact (Keymap.orderly_registerBinding b replace).bind fun _ _ => .of_pure trivial

end LinkerScriptMode

namespace Manager

/-- Everything that a manager may run leaves its own spans in order. -/
structure Tracked (m : Manager) : Prop where
  actions : m.keymap.Provides SpansNest
  descriptors : ∀ entry ∈ m.descriptors, entry.2.Tracked

theorem tracked_ofWorkspace (w : Workspace) : (ofWorkspace w).Tracked := ⟨nofun, nofun⟩

variable {α : Type} {wanted : α → Prop} {m : Manager}

theorem Tracked.behaviour (tracked : m.Tracked) (mode : String) : (m.behaviour mode).Tracked := by
  rw [Manager.behaviour]
  cases known : OrderedMap.get? mode m.descriptors with
  | none => trivial
  | some d => exact (tracked.descriptors _ (OrderedMap.mem_of_get? known)).behaviour

theorem orderly_onWorkspace {x : Traced Workspace α} (nest : SpansNest x) :
    Orderly Tracked (onWorkspace x) fun _ => True :=
  nest.orderly.zoom (fun _ _ => trivial) fun _ _ tracked _ => ⟨tracked.actions, tracked.descriptors⟩

theorem orderly_onKeymap {x : Traced (Keymap Handler) α}
    (orderly : Orderly (Keymap.Provides SpansNest) x wanted) :
    Orderly Tracked (onKeymap x) wanted :=
  orderly.zoom (fun _ tracked => tracked.actions) fun _ _ tracked provides =>
    ⟨provides, tracked.descriptors⟩

theorem orderly_changeWorkspace (f : Workspace → Workspace) :
    Orderly Tracked (changeWorkspace f) fun _ => True :=
  .of_modify fun _ tracked => ⟨tracked.actions, tracked.descriptors⟩

theorem spansNest_emit (event : String) (payload : Datum) :
    SpansNest (Workspace.emit event payload) := spansNest_of_silent fun _ => rfl

theorem orderly_register {d : Descriptor} (tracked : d.Tracked) :
    Orderly Tracked (register d) fun _ => True := by
  refine Orderly.of_get.bind fun m _ => ?_
  dsimp only
  split
  · exact .fail_bind _
  · refine Orderly.within ?_
    refine (Orderly.of_forIn fun a mem => ?_).bind fun _ _ => ?_
    · refine (orderly_onKeymap (Keymap.orderly_registerAction (tracked.actions a mem) true)).bind
        fun _ _ => .of_pure trivial
    refine (Orderly.of_forIn fun b _ => ?_).bind fun _ _ => ?_
    · exact (orderly_onKeymap (Keymap.orderly_registerBinding b false)).bind
        fun _ _ => .of_pure trivial
    refine .of_modify fun m known => ⟨known.actions, ?_⟩
    intro entry mem
    rcases OrderedMap.mem_put mem with rfl | mem
    · exact tracked
    · exact known.descriptors entry mem

theorem orderly_setPending (mode : String) (keys : List String) :
    Orderly Tracked (setPending mode keys) fun _ => True := orderly_changeWorkspace _

theorem orderly_enter (mode : String) (previous : Option String) :
    Orderly Tracked (enter mode previous) fun _ => True := by
  refine Orderly.of_get.bind fun m tracked => ?_
  have behaviour := tracked.behaviour mode
  cases known : m.behaviour mode with
  | linkerScript =>
      refine (orderly_changeWorkspace _).bind fun _ _ => ?_
      exact orderly_onWorkspace (spansNest_emit _ _)
  | host host =>
      rw [known] at behaviour
      exact orderly_onWorkspace (behaviour.enter previous)

theorem orderly_leave (mode : String) (next : Option String) :
    Orderly Tracked (leave mode next) fun _ => True := by
  refine Orderly.of_get.bind fun m tracked => ?_
  have behaviour := tracked.behaviour mode
  cases known : m.behaviour mode with
  | linkerScript =>
      refine (orderly_setPending _ _).bind fun _ _ => ?_
      refine (orderly_changeWorkspace _).bind fun _ _ => ?_
      exact orderly_onWorkspace (spansNest_emit _ _)
  | host host =>
      rw [known] at behaviour
      exact orderly_onWorkspace (behaviour.leave next)

theorem orderly_instantiate (d : Descriptor) :
    Orderly Tracked (instantiate d) fun _ => True := by
  refine Orderly.of_get.bind fun m _ => ?_
  dsimp only
  split
  · exact .of_pure trivial
  · refine (Orderly.of_ofExcept fun _ _ => trivial).bind fun state _ => ?_
    exact (orderly_changeWorkspace _).bind fun _ _ => .of_pure trivial

theorem orderly_event (level : LogLevel) (name : String) (data : OrderedMap String Datum) :
    Orderly Tracked (event level name data) fun _ => True :=
  .of_write (LogEntry.isPlain_event _ _ _ _)

theorem orderly_activate (name : String) : Orderly Tracked (activate name) fun _ => True := by
  refine Orderly.of_get.bind fun m _ => ?_
  refine (Orderly.of_ofExcept fun _ _ => trivial).bind fun d _ => ?_
  refine Orderly.of_get.bind fun m _ => ?_
  dsimp only
  split
  · exact .of_pure trivial
  · have opens : Orderly Tracked (do
        let state ← instantiate d
        changeWorkspace ({ · with active := some name })
        enter name m.workspace.activeName?
        onWorkspace (Workspace.emit "mode.enter" (.str name))
        event .info "mode.switch" [("mode", .str name)]
        return state.name) fun _ => True := by
      refine (orderly_instantiate d).bind fun state _ => ?_
      refine (orderly_changeWorkspace _).bind fun _ _ => ?_
      refine (orderly_enter _ _).bind fun _ _ => ?_
      refine (orderly_onWorkspace (spansNest_emit _ _)).bind fun _ _ => ?_
      exact (orderly_event _ _ _).bind fun _ _ => .of_pure trivial
    split
    · refine (orderly_leave _ _).bind fun _ _ => ?_
      exact (orderly_onWorkspace (spansNest_emit _ _)).bind fun _ _ => opens
    · exact opens

theorem orderly_activateForPath (path : String) :
    Orderly Tracked (activateForPath path) fun _ => True := by
  refine Orderly.of_get.bind fun m _ => ?_
  split
  · exact (orderly_activate _).map
  · exact (orderly_event _ _ _).bind fun _ _ => .of_pure trivial

theorem orderly_execute (b : Binding) {a : Action Handler} (nest : SpansNest a.handler) :
    Orderly Tracked (execute b a) fun _ => True :=
  (orderly_onWorkspace nest).within.map

theorem orderly_pressLinkerScript (mode : String) (state : ModeState) (key : KeyPress) :
    Orderly Tracked (pressLinkerScript mode state key) fun _ => True := by
  refine (orderly_setPending _ _).bind fun _ _ => ?_
  refine (orderly_onKeymap (Keymap.orderly_resolve _ _)).bind fun r nest => ?_
  cases r with
  | found b a consumed =>
      refine (orderly_setPending _ _).bind fun _ _ => ?_
      exact orderly_execute b (nest b a consumed rfl)
  | pending consumed => exact .of_pure trivial
  | miss =>
      refine (orderly_setPending _ _).bind fun _ _ => ?_
      split
      · exact (orderly_onWorkspace (Buffer.spansNest_insertText ..).zoom).bind
          fun _ _ => .of_pure trivial
      · exact .of_pure trivial

theorem orderly_press (key : KeyPress) : Orderly Tracked (press key) fun _ => True := by
  refine Orderly.of_get.bind fun m tracked => ?_
  split
  · next mode state _ _ =>
      have behaviour := tracked.behaviour mode
      have handled : Orderly Tracked (match m.behaviour mode with
          | .linkerScript => pressLinkerScript mode state key
          | .host host => onWorkspace (host.press key)) fun _ => True := by
        cases known : m.behaviour mode with
        | linkerScript => exact orderly_pressLinkerScript mode state key
        | host host =>
            rw [known] at behaviour
            exact orderly_onWorkspace (behaviour.press key)
      refine handled.within.bind fun result _ => ?_
      dsimp only
      split
      · exact (orderly_activate _).bind fun _ _ => .of_pure trivial
      · exact .of_pure trivial
  · exact .of_fail _

theorem orderly_runAction (id : String) : Orderly Tracked (runAction id) fun _ => True := by
  refine Orderly.of_get.bind fun m tracked => ?_
  refine (Orderly.of_ofExcept fun a found => tracked.actions.action found).bind fun a nest => ?_
  exact orderly_onWorkspace nest

theorem orderly_setUp : Orderly Tracked setUp fun _ => True := by
  refine (orderly_register LinkerScriptMode.tracked_descriptor).bind fun _ _ => ?_
  refine Orderly.of_get.bind fun m _ => ?_
  split
  · exact (orderly_activate _).map
  · refine (orderly_activateForPath _).bind fun found _ => ?_
    split
    · exact .of_pure trivial
    · exact (orderly_activate _).map

end Manager

namespace View

open Manager

theorem orderly_statusLine : Orderly Tracked statusLine fun _ => True := by
  refine Orderly.of_get.bind fun m _ => ?_
  refine (Orderly.of_ofExcept fun _ _ => trivial).bind fun row _ => ?_
  refine (Orderly.of_ofExcept fun _ _ => trivial).bind fun column _ => ?_
  refine (orderly_onWorkspace Settings.spansNest_readUnit.zoom).bind fun unit _ => ?_
  refine (orderly_onWorkspace Settings.spansNest_readStyle.zoom).bind fun style _ => ?_
  exact .of_pure trivial

theorem orderly_refresh (v : View) : Orderly Tracked v.refresh fun _ => True :=
  Orderly.of_get.bind fun _ _ => orderly_changeWorkspace _

theorem orderly_attach (v : View) : Orderly Tracked v.attach fun _ => True := by
  refine (orderly_changeWorkspace _).bind fun _ _ => ?_
  refine v.orderly_refresh.bind fun _ _ => ?_
  exact orderly_statusLine.bind fun line _ => orderly_changeWorkspace _

theorem orderly_press (v : View) (key : KeyPress) :
    Orderly Tracked (v.press key) fun _ => True := by
  refine (orderly_changeWorkspace _).bind fun _ _ => ?_
  refine (Manager.orderly_press _).bind fun result _ => ?_
  refine (orderly_changeWorkspace _).bind fun _ _ => ?_
  refine v.orderly_refresh.bind fun _ _ => ?_
  refine orderly_statusLine.bind fun status _ => ?_
  dsimp only
  split
  · exact (orderly_changeWorkspace _).bind fun _ _ => .of_pure trivial
  · exact (orderly_changeWorkspace _).bind fun _ _ => .of_pure trivial

theorem orderly_close (v : View) : Orderly Tracked v.close fun _ => True :=
  orderly_changeWorkspace _

end View

namespace Manager

variable {m : Manager}

/-- What is asked of a manager, of what belongs to it and of a view of it. -/
inductive Request
  | setUp
  | register (d : Descriptor)
  | activate (name : String)
  | activateForPath (path : String)
  | press (key : KeyPress)
  | runAction (id : String)
  | keymap (call : Keymap.Call Handler)
  | loadDefaults (replace : Bool) (excluded : List String) (extra : List Binding)
  | buffer (op : Buffer.Operation)
  | indentRow (row : Int)
  | configure (change : Settings.Change)
  | attach (view : View)
  | pressView (view : View) (key : KeyPress)
  | close (view : View)

namespace Request

def perform : Request → Traced Manager Unit
  | setUp => Manager.setUp
  | register d => Manager.register d
  | activate name => discard (Manager.activate name)
  | activateForPath path => discard (Manager.activateForPath path)
  | press key => discard (Manager.press key)
  | runAction id => discard (Manager.runAction id)
  | keymap call => onKeymap call.perform
  | loadDefaults replace excluded extra => onKeymap (LinkerScriptMode.load replace excluded extra)
  | buffer op => onWorkspace (Workspace.onBuffer op.request)
  | indentRow row => onWorkspace (discard (Command.indentRow row))
  | configure change => onWorkspace (Workspace.onSettings change.make)
  | attach view => view.attach
  | pressView view key => discard (view.press key)
  | close view => view.close

/-- What a host brings along leaves its own spans in order. -/
def Tracked : Request → Prop
  | register d => d.Tracked
  | keymap call => call.Brings SpansNest
  | _ => True

theorem orderly_perform (request : Request) (tracked : request.Tracked) :
    Orderly Manager.Tracked request.perform fun _ => True := by
  cases request with
  | setUp => exact orderly_setUp
  | register d => exact orderly_register tracked
  | activate name => exact (orderly_activate name).discarded
  | activateForPath path => exact (orderly_activateForPath path).discarded
  | press key => exact (orderly_press key).discarded
  | runAction id => exact (orderly_runAction id).discarded
  | keymap call => exact orderly_onKeymap (Keymap.orderly_call call tracked)
  | loadDefaults replace excluded extra =>
      have nest : ∀ a ∈ LinkerScriptMode.actions, SpansNest a.handler :=
        fun _ => LinkerScriptMode.spansNest_handler
      exact orderly_onKeymap (LinkerScriptMode.orderly_load nest replace excluded extra)
  | buffer op => exact orderly_onWorkspace op.spansNest_request.zoom
  | indentRow row => exact orderly_onWorkspace (Command.spansNest_indentRow row).discarded
  | configure change => exact orderly_onWorkspace change.spansNest_make.zoom
  | attach view => exact view.orderly_attach
  | pressView view key => exact (view.orderly_press key).discarded
  | close view => exact view.orderly_close

end Request

/-- The manager after some requests, of which any may have failed. -/
def served (m : Manager) (requests : List Request) : Manager :=
  requests.foldl (fun m request => (request.perform m).state) m

theorem Tracked.served (tracked : m.Tracked) (requests : List Request)
    (brought : ∀ request ∈ requests, request.Tracked) : (m.served requests).Tracked := by
  induction requests generalizing m with
  | nil => exact tracked
  | cons request rest ih =>
      have first := brought request (List.mem_cons_self ..)
      exact ih (request.orderly_perform first m tracked).good fun other mem =>
        brought other (List.mem_cons_of_mem _ mem)

end Manager

end LinkerScriptEditor
