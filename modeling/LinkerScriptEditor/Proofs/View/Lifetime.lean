import LinkerScriptEditor.Proofs.View.Forwarding

/-!
# From attaching a view to closing it

Attaching a view subscribes it behind all others, and closing it takes just its own subscriptions
away. So at any time the views that listen are those that are open, in the order in which they were
attached, whatever else has been asked of the manager and of its views.
-/

namespace LinkerScriptEditor

open Traced

section Bus

variable {κ : Type} {step : String → EventBus κ → EventBus κ} {f : String → List κ → List κ}
  {events : List String}

/-- Steps that change the listeners of one event each, for distinct events. -/
theorem EventBus.listeners_foldl
    (each : ∀ event bus other, (step event bus).listeners other =
      if event = other then f event (bus.listeners event) else bus.listeners other)
    (distinct : events.Nodup) (bus : EventBus κ) (other : String) :
    (events.foldl (fun bus event => step event bus) bus).listeners other =
      if other ∈ events then f other (bus.listeners other) else bus.listeners other := by
  induction events generalizing bus with
  | nil => simp
  | cons event rest ih =>
      obtain ⟨fresh, others⟩ := List.nodup_cons.mp distinct
      rw [List.foldl_cons, ih others, each]
      by_cases same : event = other
      · subst same
        simp [fresh]
      · simp [same, Ne.symm same]

/-- What is there at most once is gone when it is erased. -/
theorem erase_eq_filter_of_count_le_one [DecidableEq κ] {l : List κ} {k : κ}
    (once : l.count k ≤ 1) : l.erase k = l.filter (· ≠ k) := by
  induction l with
  | nil => rfl
  | cons first rest ih =>
      by_cases same : first = k
      · subst same
        rw [List.count_cons_self] at once
        have gone : first ∉ rest := List.count_eq_zero.mp (by omega)
        have others : rest.filter (· ≠ first) = rest := by
          rw [List.filter_eq_self]
          intro other mem
          exact decide_eq_true fun same => gone (same ▸ mem)
        rw [List.erase_cons_head, List.filter_cons_of_neg (by simp), others]
      · rw [List.count_cons_of_ne same] at once
        rw [List.erase_cons_tail (by simpa using same), ih once, List.filter_cons_of_pos]
        simpa using same

end Bus

namespace View

variable {v : View} {live : List View} {m : Manager} {w after : Workspace}

theorem Attending.congr (attending : Attending w live) (bus : after.bus = w.bus) :
    Attending after live where
  viewers := fun event => by
    rw [Workspace.viewers, bus]
    exact attending.viewers event
  once := attending.once

theorem listener_injective (event : String) : Function.Injective (View.listener · event) := by
  rintro ⟨a⟩ ⟨b⟩ same
  cases same
  rfl

theorem Attending.filter_isView (attending : Attending w live) (event : String) :
    (w.bus.listeners event).filter Listener.isView =
      if event ∈ forwarded then live.map (·.listener event) else [] := attending.viewers event

/-- A view that listens is open, and listens to something that views forward. -/
theorem Attending.listens (attending : Attending w live) {event : String}
    (mem : v.listener event ∈ w.bus.listeners event) : event ∈ forwarded ∧ v ∈ live := by
  have viewer : v.listener event ∈ (w.bus.listeners event).filter Listener.isView :=
    List.mem_filter.mpr ⟨mem, rfl⟩
  rw [attending.filter_isView] at viewer
  split at viewer
  · next forwards =>
      obtain ⟨u, member, same⟩ := List.mem_map.mp viewer
      exact ⟨forwards, listener_injective event same ▸ member⟩
  · cases viewer

/-- The bus once a view is subscribed to all that views forward. -/
def joined (v : View) (bus : EventBus Listener) : EventBus Listener :=
  forwarded.foldl (fun bus event => bus.subscribe event (v.listener event)) bus

/-- The bus once a view has given back its subscriptions. -/
def parted (v : View) (bus : EventBus Listener) : EventBus Listener :=
  forwarded.reverse.foldl (fun bus event => bus.unsubscribe event (v.listener event)) bus

theorem listeners_joined (v : View) (bus : EventBus Listener) (event : String) :
    (v.joined bus).listeners event =
      if event ∈ forwarded then bus.listeners event ++ [v.listener event]
      else bus.listeners event :=
  EventBus.listeners_foldl (f := fun event ls => ls ++ [v.listener event])
    (fun e bus other => EventBus.listeners_subscribe e other _ bus) (by decide) bus event

theorem listeners_parted (v : View) (bus : EventBus Listener) (event : String) :
    (v.parted bus).listeners event =
      if event ∈ forwarded then (bus.listeners event).erase (v.listener event)
      else bus.listeners event := by
  have distinct : forwarded.reverse.Nodup := by decide
  rw [parted, EventBus.listeners_foldl (f := fun event ls => ls.erase (v.listener event))
    (fun e bus other => EventBus.listeners_unsubscribe e other _ bus) distinct bus event]
  simp only [List.mem_reverse]

theorem Attending.joined (attending : Attending w live) (fresh : v ∉ live) :
    Attending { w with bus := v.joined w.bus } (live ++ [v]) where
  viewers := fun event => by
    have before := attending.filter_isView event
    rw [Workspace.viewers, listeners_joined]
    split
    · next forwards =>
        rw [if_pos forwards] at before
        rw [List.filter_append, before, List.map_append]
        rfl
    · next other =>
        rw [if_neg other] at before
        exact before
  once := by
    refine List.nodup_append.mpr ⟨attending.once, List.nodup_singleton v, ?_⟩
    rintro u mem _ single rfl
    exact fresh (List.mem_singleton.mp single ▸ mem)

/-- No view is subscribed twice to an event. -/
theorem Attending.count_le_one (attending : Attending w live) (v : View) (event : String) :
    (w.bus.listeners event).count (v.listener event) ≤ 1 := by
  have view : (v.listener event).isView = true := rfl
  rw [← List.count_filter view, attending.filter_isView]
  split
  · have distinct := attending.once.map (listener_injective event)
    exact List.nodup_iff_count_le_one.mp distinct _
  · exact Nat.zero_le 1

/-- Closing takes a view out of all that are told, and leaves everyone else in place. -/
theorem Attending.listeners_parted (attending : Attending w live) (v : View) (event : String) :
    (v.parted w.bus).listeners event =
      (w.bus.listeners event).filter (· ≠ v.listener event) := by
  rw [View.listeners_parted, ← erase_eq_filter_of_count_le_one (attending.count_le_one v event)]
  split
  · rfl
  · next other =>
      exact (List.erase_of_not_mem fun mem => other (attending.listens mem).1).symm

/-- Closing a view that is not open changes nothing for anyone. -/
theorem Attending.listeners_parted_of_closed (attending : Attending w live) (closed : v ∉ live)
    (event : String) : (v.parted w.bus).listeners event = w.bus.listeners event := by
  rw [attending.listeners_parted, List.filter_eq_self]
  intro l mem
  refine decide_eq_true ?_
  rintro rfl
  exact closed (attending.listens mem).2

theorem Attending.parted (attending : Attending w live) (v : View) :
    Attending { w with bus := v.parted w.bus } (live.filter (· ≠ v)) where
  viewers := fun event => by
    rw [Workspace.viewers]
    dsimp only
    rw [attending.listeners_parted, List.filter_comm, attending.filter_isView]
    split
    · rw [List.filter_map]
      congr 1
      apply List.filter_congr
      intro u mem
      have same := (listener_injective event).eq_iff (a := u) (b := v)
      simp only [Function.comp_apply, ne_eq, same]
    · rfl
  once := attending.once.filter _

theorem effect_close (v : View) (m : Manager) :
    effect v.close m =
      (.ok (), { m with workspace := { m.workspace with bus := v.parted m.workspace.bus } }) := rfl

theorem foldl_subscribe (v : View) (w : Workspace) :
    forwarded.foldl (fun w event => w.subscribe event (v.listener event)) w =
      { w with bus := v.joined w.bus } := rfl

/-- Attaching a view subscribes it, and apart from that only adds notices. -/
theorem exists_notices_attach (v : View) (m : Manager) :
    ∃ notices, (effect v.attach m).2 =
      { m with workspace := { m.workspace with bus := v.joined m.workspace.bus, notices } } := by
  rw [attach, effect_bind_of_ok (Manager.effect_changeWorkspace _ m), foldl_subscribe,
    effect_bind_of_ok (effect_refresh v _), effect_bind, effect_statusLine]
  generalize standing _ = outcome
  cases outcome with
  | error fault => exact ⟨_, rfl⟩
  | ok status => exact ⟨_, rfl⟩

theorem heard_noting (v : View) (c : ViewCall) (m : Manager) :
    (v.noting c m).workspace.heard =
      m.workspace.heard ++ if Notice.isLog (.view v.id c) then [] else [.view v.id c] :=
  Workspace.heard_note _ _

theorem heard_pictured (v : View) (result : KeyResult) (m : Manager) :
    (v.pictured result m).workspace.heard =
      m.workspace.heard ++ [.view v.id (picture m)] := by
  rw [pictured, heard_noting, heard_noting]
  simp only [Notice.isLog, picture, if_true, List.append_nil, Bool.false_eq_true, if_false]

/-- What a view shows after a key comes behind all that is heard while the key is handled, and
nothing but the notices changes by it. -/
theorem exists_calls_press (v : View) (key : KeyPress) (m : Manager) :
    let ran := effect (v.press key) m
    let handled := v.handled key m
    (∃ notices, ran.2 =
      { handled.2 with workspace := { handled.2.workspace with notices } }) ∧
    ∃ calls, ran.2.workspace.heard = handled.2.workspace.heard ++ calls ∧
      (∀ u, calls.filterMap (Notice.passed? u) = []) ∧
      ∀ result, ran.1 = .ok result → handled.1 = .ok result ∧ ∃ status,
        standing ran.2 = .ok status ∧ calls = [.view v.id (picture ran.2),
          .view v.id (.status (withMessage status result))] := by
  intro ran handled
  rcases answered : v.handled key m with ⟨fault | result, after⟩
  · have refused : ran = (.error fault, after) := effect_press_of_error answered
    have same : handled = (.error fault, after) := answered
    rw [refused, same]
    exact ⟨⟨_, rfl⟩, [], (List.append_nil _).symm, fun _ => rfl, by rintro _ ⟨⟩⟩
  · have shown : ran = _ := effect_press_of_ok answered
    have same : handled = (.ok result, after) := answered
    rw [same]
    cases stands : standing after with
    | error fault =>
        rw [stands] at shown
        rw [shown]
        exact ⟨⟨_, rfl⟩, _, heard_pictured v result after, fun _ => rfl, by rintro _ ⟨⟩⟩
    | ok status =>
        rw [stands] at shown
        rw [shown]
        refine ⟨⟨_, rfl⟩, [.view v.id (picture after),
          .view v.id (.status (withMessage status result))], ?_, fun _ => rfl, ?_⟩
        · dsimp only
          rw [heard_noting, heard_pictured, List.append_assoc]
          rfl
        · rintro _ ⟨⟩
          exact ⟨rfl, status, stands, rfl⟩

/-- A discreet manager, and the views of it that are open. -/
structure Attended (m : Manager) (live : List View) : Prop where
  discreet : m.Discreet
  attending : Attending m.workspace live

theorem hushed_asked (v : View) (key : KeyPress) (m : Manager) :
    m.workspace.Hushed (v.asked key m).workspace where
  heard := by
    rw [asked, heard_noting]
    exact List.append_nil _
  viewers := fun _ => rfl

/-- All that is heard while the manager handles a key of a view are emissions. -/
theorem Attended.handled (attended : Attended m live) (v : View) (key : KeyPress) :
    Manager.Speaks m.workspace (v.handled key m).2 :=
  Manager.speaks_press (given key) _
    ⟨attended.discreet.work _, (hushed_asked v key m).speaks⟩

theorem Attended.congr (attended : Attended m live) (bus : w.bus = m.workspace.bus) :
    Attended { m with workspace := w } live :=
  ⟨attended.discreet.work _, attended.attending.congr bus⟩

theorem Attended.speaks (attended : Attended m live) {next : Manager}
    (speaks : Manager.Speaks m.workspace next) : Attended next live := by
  obtain ⟨discreet, es, emits⟩ := speaks
  exact ⟨discreet, attended.attending.emits emits⟩

/-- Whatever is asked, the views that listen are those that are open. -/
theorem Attended.perform (attended : Attended m live) {request : Manager.Request}
    (discreet : request.Discreet) (fresh : ∀ v, request = .attach v → v ∉ live) :
    Attended (effect request.perform m).2 (request.turn live) := by
  have viewless : request.Viewless → Attended (effect request.perform m).2 live :=
    fun viewless => attended.speaks
      (Manager.Request.speaks_perform discreet viewless m attended.discreet.speaks)
  cases request with
  | attach v =>
      obtain ⟨notices, attached⟩ := exists_notices_attach v m
      have joins := attended.attending.joined (fresh v rfl)
      rw [Manager.Request.perform, attached]
      exact ⟨attended.discreet.work _, joins.congr rfl⟩
  | pressView v key =>
      obtain ⟨⟨notices, pressed⟩, -⟩ := exists_calls_press v key m
      rw [Manager.Request.perform, effect_discard, pressed]
      exact (attended.speaks (attended.handled v key)).congr rfl
  | close v =>
      rw [Manager.Request.perform, effect_close]
      exact ⟨attended.discreet.work _, attended.attending.parted v⟩
  | _ => exact viewless trivial

theorem Attended.served (attended : Attended m live) {requests : List Manager.Request}
    (discreet : ∀ r ∈ requests, r.Discreet) (once : (live ++ attached requests).Nodup) :
    Attended (m.served requests) (requests.foldl Manager.Request.turn live) := by
  induction requests generalizing m live with
  | nil => exact attended
  | cons request rest ih =>
      have fresh : ∀ v, request = .attach v → v ∉ live := by
        rintro v rfl member
        exact (List.nodup_append.mp once).2.2 v member v List.mem_cons_self rfl
      have next := attended.perform (discreet request List.mem_cons_self) fresh
      refine ih next (fun r mem => discreet r (List.mem_cons_of_mem request mem)) ?_
      cases request with
      | attach v => simpa [Manager.Request.turn, attached, Manager.Request.attaches?] using once
      | close v => exact once.sublist (List.filter_sublist.append_right _)
      | _ => exact once

theorem eq_ok_of_toOption {α : Type} {outcome : Except Fault α} {a : α}
    (done : outcome.toOption = some a) : outcome = .ok a := by
  cases outcome with
  | error fault => cases done
  | ok b =>
      cases done
      rfl

end View

end LinkerScriptEditor
