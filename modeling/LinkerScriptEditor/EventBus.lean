import LinkerScriptEditor.Datum

/-!
# Event bus

Listeners subscribe to events and are told of each emission in the order of their subscriptions.
An emission reaches the listeners that are subscribed when it begins, whatever they do while being
told. Unsubscribing takes away the earliest subscription of the listener.
-/

namespace LinkerScriptEditor

/-- The subscriptions for each event, oldest first. -/
structure EventBus (κ : Type) where
  subscriptions : OrderedMap String (List κ)

namespace EventBus
variable {κ : Type} [DecidableEq κ]

def empty : EventBus κ := ⟨[]⟩

def listeners (bus : EventBus κ) (event : String) : List κ :=
  (OrderedMap.get? event bus.subscriptions).getD []

def subscribe (event : String) (listener : κ) (bus : EventBus κ) : EventBus κ :=
  ⟨OrderedMap.put event (bus.listeners event ++ [listener]) bus.subscriptions⟩

def unsubscribe (event : String) (listener : κ) (bus : EventBus κ) : EventBus κ :=
  ⟨OrderedMap.put event ((bus.listeners event).erase listener) bus.subscriptions⟩

omit [DecidableEq κ] in
theorem listeners_subscribe (event other : String) (listener : κ) (bus : EventBus κ) :
    (bus.subscribe event listener).listeners other =
      if event = other then bus.listeners event ++ [listener] else bus.listeners other := by
  simp only [listeners, subscribe, OrderedMap.get?_put]
  split <;> simp

theorem listeners_unsubscribe (event other : String) (listener : κ) (bus : EventBus κ) :
    (bus.unsubscribe event listener).listeners other =
      if event = other then (bus.listeners event).erase listener else bus.listeners other := by
  simp only [listeners, unsubscribe, OrderedMap.get?_put]
  split <;> simp

end EventBus

/-- What someone does with a bus. A listener gets its reaction with its first subscription. -/
inductive BusAction
  | subscribe (listener event : String) (reaction : List BusAction)
  | unsubscribe (listener event : String)
  | detach (listener : String) (index : Datum)
  | emit (event : String) (payload : Datum)
deriving Inhabited

/-- What there was no room left for: a call into a listener or the bus, a comparison of two
listeners, or taking one off a list. -/
inductive Overrun
  | call
  | comparison
  | removal
deriving DecidableEq

def Overrun.place : Overrun → String
  | call => ""
  | comparison => " in comparison"
  | removal => " while calling a Python object"

inductive BusFault
  | noSubscription
  | indexTooLarge
  | notAnIndex (kind : String)
  | tooDeep (overrun : Overrun)
deriving DecidableEq

def BusFault.message : BusFault → String
  | noSubscription => "list index out of range"
  | indexTooLarge => "cannot fit 'int' into an index-sized integer"
  | notAnIndex kind => s!"list indices must be integers or slices, not {kind}"
  | tooDeep overrun => s!"maximum recursion depth exceeded{overrun.place}"

/-- A bus whose listeners react. It keeps the reactions, for each listener the events of all its
subscriptions, which is what can be detached, and the calls made so far. -/
structure LiveBus where
  bus : EventBus String
  reactions : OrderedMap String (List BusAction)
  detachable : OrderedMap String (List String)
  calls : List (String × Datum)

namespace LiveBus

def empty : LiveBus := ⟨.empty, [], [], []⟩

def reaction (s : LiveBus) (listener : String) : List BusAction :=
  (OrderedMap.get? listener s.reactions).getD []

def events (s : LiveBus) (listener : String) : List String :=
  (OrderedMap.get? listener s.detachable).getD []

def call (listener : String) (payload : Datum) (s : LiveBus) : LiveBus :=
  { s with calls := s.calls ++ [(listener, payload)] }

def subscribe (listener event : String) (reaction : List BusAction) (s : LiveBus) : LiveBus :=
  { s with
    bus := s.bus.subscribe event listener
    reactions :=
      if (OrderedMap.get? listener s.reactions).isSome then s.reactions
      else OrderedMap.put listener reaction s.reactions
    detachable := OrderedMap.put listener (s.events listener ++ [event]) s.detachable }

def unsubscribe (listener event : String) (s : LiveBus) : LiveBus :=
  { s with bus := s.bus.unsubscribe event listener }

/-- The event of the subscription at an index; negative indices count from the newest. An index is
a machine word. -/
def subscribedAt (s : LiveBus) (listener : String) (index : Int) : Except BusFault String :=
  let events := s.events listener
  let place := if index < 0 then index + events.length else index
  if index < -0x8000000000000000 || 0x8000000000000000 ≤ index then .error .indexTooLarge
  else if place < 0 then .error .noSubscription
  else match events[place.toNat]? with
    | some event => .ok event
    | none => .error .noSubscription

def subscribed (s : LiveBus) (listener : String) (index : Datum) : Except BusFault String :=
  match index.int? with
  | some index => s.subscribedAt listener index
  | none => .error (.notAnIndex index.kind)

abbrev Step := ExceptT BusFault (StateM LiveBus)

/-- What there is no room left for when a listener is looked up on a list and taken off it. The
first of the list is found without a comparison. -/
def overrun? (room : Nat) (listener : String) : List String → Option Overrun
  | [] => none
  | first :: rest =>
    if room = 0 then some (if first = listener then .removal else .comparison)
    else if room = 1 && first != listener && rest.contains listener then some .comparison
    else none

/-- Takes a subscription away in a call of the bus. -/
def withdraw (listener event : String) : Nat → Step Unit
  | 0 => throw (.tooDeep .call)
  | room + 1 => do
    match overrun? room listener ((← get).bus.listeners event) with
    | some overrun => throw (.tooDeep overrun)
    | none => modify (unsubscribe listener event)

/-- Does an action and everything that follows from it. Every call that is not yet over takes up
room: the action, the call of the bus, and the call of a listener. -/
def perform : Nat → BusAction → Step Unit
  | _ + 2, .subscribe listener event reaction => modify (subscribe listener event reaction)
  | room + 1, .unsubscribe listener event => withdraw listener event room
  | room + 1, .detach listener index => do
    let event ← (← get).subscribed listener index
    match room with
    | 0 => throw (.tooDeep .call)
    | room + 1 => withdraw listener event room
  | room + 2, .emit event payload => do
    for listener in (← get).bus.listeners event do
      match room with
      | 0 => throw (.tooDeep .call)
      | room + 1 =>
        modify (call listener payload)
        for action in (← get).reaction listener do
          perform room action
  | _, _ => throw (.tooDeep .call)

end LiveBus

end LinkerScriptEditor
