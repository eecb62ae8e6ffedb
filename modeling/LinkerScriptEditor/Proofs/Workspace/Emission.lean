import LinkerScriptEditor.Proofs.Workspace.Worked

/-!
# Emissions

An emission tells everyone who is subscribed to its event at that moment, each once and in the order
of the subscriptions. Between emissions a discreet part of the editor may change the workspace, and
subscribe and unsubscribe observers, but nothing is told and no view comes or goes. So the emissions
of a run say all that is heard during the run.
-/

namespace LinkerScriptEditor

namespace Listener

def isView : Listener → Bool
  | .observer _ => false
  | .view .. => true

/-- What is noted when a listener is told. -/
def notice (payload : Datum) : Listener → Notice
  | .observer event => .event event payload
  | .view id event => .view id (.event event payload)

end Listener

def Notice.isLog : Notice → Bool
  | .view _ (.log _) => true
  | _ => false

/-- An event, and who was subscribed to it when it was emitted. -/
structure Emission where
  event : String
  payload : Datum
  audience : List Listener

def Emission.notices (e : Emission) : List Notice := e.audience.map (Listener.notice e.payload)

namespace Workspace

open Traced

/-- The notices other than log lines. -/
def heard (w : Workspace) : List Notice := w.notices.filter fun notice => !notice.isLog

/-- The views that are subscribed to an event. -/
def viewers (w : Workspace) (event : String) : List Listener :=
  (w.bus.listeners event).filter Listener.isView

/-- Nothing is told, and no view comes or goes. -/
structure Hushed (w after : Workspace) : Prop where
  heard : after.heard = w.heard
  viewers : ∀ event, after.viewers event = w.viewers event

/-- One workspace comes from another by some emissions, with hushed changes in between. -/
inductive Emits : Workspace → List Emission → Workspace → Prop
  | refl (w : Workspace) : Emits w [] w
  | hush {w middle after : Workspace} {es : List Emission} (hushed : w.Hushed middle)
      (rest : Emits middle es after) : Emits w es after
  | emit {w after : Workspace} {es : List Emission} (event : String) (payload : Datum)
      (rest : Emits (w.emitted event payload) es after) :
      Emits w (⟨event, payload, w.bus.listeners event⟩ :: es) after

/-- All that becomes of a workspace is some emissions. -/
def Speaks (w after : Workspace) : Prop := ∃ es, w.Emits es after

/-- A step does no more than to speak, whatever the workspace and whether or not it is refused. -/
def Discreet {α : Type} (x : Traced Workspace α) : Prop :=
  ∀ w : Workspace, w.Speaks (effect x w).2

variable {w middle after : Workspace} {es more : List Emission}

theorem heard_note (notice : Notice) (w : Workspace) :
    (w.note notice).heard = w.heard ++ if notice.isLog then [] else [notice] := by
  rw [note, heard, List.filter_append]
  cases logs : notice.isLog <;> simp [heard, logs]

theorem heard_tell (payload : Datum) (listener : Listener) (w : Workspace) :
    (w.tell payload listener).heard = w.heard ++ [listener.notice payload] := by
  cases listener with
  | observer event => exact heard_note _ w
  | view id event =>
      rw [tell, noteView, noteView, heard_note, heard_note, List.append_assoc]
      rfl

/-- Each listener is told once, in the order of the subscriptions. -/
theorem heard_emitted (event : String) (payload : Datum) (w : Workspace) :
    (w.emitted event payload).heard =
      w.heard ++ (w.bus.listeners event).map (Listener.notice payload) := by
  rw [emitted]
  generalize w.bus.listeners event = audience
  induction audience generalizing w with
  | nil => simp
  | cons listener rest ih =>
      rw [List.foldl_cons, ih, heard_tell, List.append_assoc]
      rfl

theorem viewers_emitted (event : String) (payload : Datum) (w : Workspace) (other : String) :
    (w.emitted event payload).viewers other = w.viewers other := by
  rw [viewers, bus_emitted, viewers]

theorem Emits.trans (first : w.Emits es middle) (second : middle.Emits more after) :
    w.Emits (es ++ more) after := by
  induction first with
  | refl w => exact second
  | hush hushed rest ih => exact .hush hushed (ih second)
  | emit event payload rest ih => exact .emit event payload (ih second)

/-- Whatever is heard during a run comes from its emissions. -/
theorem Emits.heard (emits : w.Emits es after) :
    after.heard = w.heard ++ es.flatMap Emission.notices := by
  induction emits with
  | refl w => simp
  | hush hushed rest ih => rw [ih, hushed.heard]
  | emit event payload rest ih =>
      rw [ih, heard_emitted, List.flatMap_cons, List.append_assoc]
      rfl

theorem Emits.viewers (emits : w.Emits es after) (event : String) :
    after.viewers event = w.viewers event := by
  induction emits with
  | refl w => rfl
  | hush hushed rest ih => rw [ih, hushed.viewers]
  | emit name payload rest ih => rw [ih, viewers_emitted]

/-- Each emission reaches just the views that are subscribed all along. -/
theorem Emits.audience (emits : w.Emits es after) :
    ∀ e ∈ es, e.audience.filter Listener.isView = w.viewers e.event := by
  induction emits with
  | refl w => nofun
  | hush hushed rest ih =>
      intro e mem
      rw [ih e mem, hushed.viewers]
  | emit event payload rest ih =>
      refine List.forall_mem_cons.mpr ⟨rfl, fun e mem => ?_⟩
      rw [ih e mem, viewers_emitted]

theorem Hushed.of_same (bus : after.bus = w.bus) (notices : after.notices = w.notices) :
    w.Hushed after where
  heard := by rw [Workspace.heard, notices, Workspace.heard]
  viewers := fun event => by rw [Workspace.viewers, bus, Workspace.viewers]

theorem hushed_buffer (w : Workspace) (b : Buffer) : w.Hushed { w with buffer := b } :=
  .of_same rfl rfl

theorem Speaks.refl (w : Workspace) : w.Speaks w := ⟨[], .refl w⟩

theorem Speaks.trans (first : w.Speaks middle) (second : middle.Speaks after) :
    w.Speaks after := by
  obtain ⟨es, first⟩ := first
  obtain ⟨more, second⟩ := second
  exact ⟨es ++ more, first.trans second⟩

theorem Hushed.speaks (hushed : w.Hushed after) : w.Speaks after := ⟨[], .hush hushed (.refl after)⟩

theorem speaks_emitted (event : String) (payload : Datum) (w : Workspace) :
    w.Speaks (w.emitted event payload) := ⟨_, .emit event payload (.refl _)⟩

/-- The work of commands is discreet. -/
theorem Worked.speaks (worked : w.Worked after) : w.Speaks after := by
  induction worked with
  | refl w => exact .refl w
  | edit op gentle rest ih => exact (hushed_buffer _ _).speaks.trans ih
  | emit other payload rest ih => exact (speaks_emitted _ payload _).trans ih

theorem discreet_emit (event : String) (payload : Datum) : Discreet (emit event payload) :=
  speaks_emitted event payload

theorem discreet_onBuffer {α : Type} (x : Traced Buffer α) : Discreet (onBuffer x) :=
  fun w => (hushed_buffer w _).speaks

theorem discreet_onSettings {α : Type} (x : Traced Settings α) : Discreet (onSettings x) := by
  intro w
  have hushed : w.Hushed (effect (onSettings x) w).2 := .of_same rfl rfl
  exact hushed.speaks

end Workspace

end LinkerScriptEditor
