import LinkerScriptEditor.Key
import LinkerScriptEditor.Log.Traced

/-!
# Keymaps

A keymap holds actions and, for each mode, bindings of key sequences to actions. No two bindings
of a mode share a sequence, and every binding names an action that is there. A registration that
is refused changes nothing. Resolving keys says whether they are bound, the beginning of a bound
sequence, or neither.
-/

namespace LinkerScriptEditor

/-- A named command of the editor; what runs it is left open. -/
structure Action (η : Type) where
  id : String
  handler : η
  description : Option String

/-- An action needs a name and something to run. -/
def Action.make {η : Type} (id : String) (handler : Option η) (description : Option String) :
    Except Fault (Action η) :=
  if id = "" then .error .emptyAction
  else match handler with
    | some handler => .ok ⟨id, handler, description⟩
    | none => .error .noHandler

/-- A key sequence that stands for an action in one mode. -/
structure Binding where
  id : String
  mode : String
  sequence : KeySequence
  action : String
  description : Option String
deriving DecidableEq

def Binding.make (id mode : String) (sequence : KeySequence) (action : String)
    (description : Option String) : Except Fault Binding :=
  if id = "" then .error .emptyBinding
  else if mode = "" then .error .emptyBindingMode
  else if action = "" then .error .emptyBindingAction
  else .ok ⟨id, mode, sequence, action, description⟩

/-- The bindings of one mode by their sequences. -/
abbrev SequenceTable := OrderedMap (List String) String

structure Keymap (η : Type) where
  logger : String
  actions : OrderedMap String (Action η)
  bindings : OrderedMap String Binding
  tables : OrderedMap String SequenceTable

/-- What a list of keys comes to, and how many of them it used. -/
inductive Resolution (η : Type)
  | found (binding : Binding) (action : Action η) (consumed : Nat)
  | pending (consumed : Nat)
  | miss

namespace Keymap
variable {η : Type}

def empty (logger : String) : Keymap η := ⟨logger, [], [], []⟩

def action (k : Keymap η) (id : String) : Except Fault (Action η) :=
  match OrderedMap.get? id k.actions with
  | some action => .ok action
  | none => .error (.unknownAction id)

def binding (k : Keymap η) (id : String) : Except Fault Binding :=
  match OrderedMap.get? id k.bindings with
  | some binding => .ok binding
  | none => .error (.unknownBinding id)

def table (k : Keymap η) (mode : String) : SequenceTable := (OrderedMap.get? mode k.tables).getD []

/-- The bindings of a mode, or of all modes, in the order in which they were made. -/
def bindingsOf (k : Keymap η) (mode : Option String) : List Binding :=
  (OrderedMap.values k.bindings).filter fun b => mode.all (b.mode == ·)

/-- The other binding that has the same mode and sequence, if there is one. A table may name a
binding that is not there; then there is no answer. -/
def detectConflicts (k : Keymap η) (b : Binding) : Except Fault (List Binding) :=
  match OrderedMap.get? b.sequence.tokens (k.table b.mode) with
  | none => .ok []
  | some id => if id = b.id then .ok [] else (fun other => [other]) <$> k.binding id

def conflicts (k : Keymap η) (b : Binding) : List Binding :=
  match k.detectConflicts b with
  | .ok others => others
  | .error _ => []

def putAction (a : Action η) (k : Keymap η) : Keymap η :=
  { k with actions := OrderedMap.put a.id a k.actions }

/-- Takes a binding out, and its sequence if the sequence is still its own. -/
def drop (b : Binding) (k : Keymap η) : Keymap η :=
  let table := k.table b.mode
  { k with
    bindings := OrderedMap.erase b.id k.bindings
    tables :=
      if OrderedMap.get? b.sequence.tokens table = some b.id then
        OrderedMap.put b.mode (OrderedMap.erase b.sequence.tokens table) k.tables
      else k.tables }

def insert (b : Binding) (k : Keymap η) : Keymap η :=
  { k with
    bindings := OrderedMap.put b.id b k.bindings
    tables := OrderedMap.put b.mode
      (OrderedMap.put b.sequence.tokens b.id (k.table b.mode)) k.tables }

/-- Puts a binding in after what it replaces is gone: the others that are in conflict with it, and
the one that has its name. -/
def putBinding (b : Binding) (others : List Binding) (k : Keymap η) : Keymap η :=
  let stale := others ++ (OrderedMap.get? b.id k.bindings).toList
  insert b (stale.foldl (fun k old => k.drop old) k)

def span (k : Keymap η) (name : String) (data : OrderedMap String Datum) : SpanHandle :=
  .ofData k.logger name (some "keymaps") data

def registerAction (a : Action η) (replace : Bool) : Traced (Keymap η) Unit := do
  let k ← get
  Traced.within (k.span "keymaps::register_action" [("action_id", .str a.id)]) do
    if !replace && (OrderedMap.get? a.id k.actions).isSome then
      Traced.fail (.actionTaken a.id)
    else
      set (k.putAction a)

def registerBinding (b : Binding) (replace : Bool) : Traced (Keymap η) Unit := do
  let k ← get
  let handle := k.span "keymaps::register_binding"
    [("binding_id", .str b.id), ("mode", .str b.mode)]
  Traced.span handle do
    if (OrderedMap.get? b.action k.actions).isNone then
      Traced.annotate "missing_action" (.str b.action)
      Traced.fail (.danglingBinding b.id b.action)
    else
      let others ← Traced.ofExcept (k.detectConflicts b)
      let ids := others.map Binding.id
      if !replace && !others.isEmpty then
        Traced.annotate "conflicts" (.str (",".intercalate ids))
        Traced.fail (.conflict b.id ids)
      else if !replace && (OrderedMap.get? b.id k.bindings).isSome then
        Traced.fail (.bindingTaken b.id)
      else
        Traced.zoom Traced.workState (set (k.putBinding b others))

/-- Takes a binding out and hands it back. -/
def unregisterBinding (id : String) (k : Keymap η) : Option Binding × Keymap η :=
  match OrderedMap.get? id k.bindings with
  | some b => (some b, k.drop b)
  | none => (none, k)

/-- Whether normal tokens are the beginning of a longer bound sequence. -/
def isStart (table : SequenceTable) (tokens : List String) : Bool :=
  table.any fun entry =>
    tokens.length < entry.1.length && entry.1.take tokens.length == tokens

def resolve (mode : String) (tokens : List String) : Traced (Keymap η) (Resolution η) := do
  let k ← get
  let tokens := tokens.map Token.normalize
  let handle := k.span "keymaps::resolve"
    [("mode", .str mode), ("keys", .str (" ".intercalate tokens))]
  Traced.span handle do
    match OrderedMap.get? tokens (k.table mode) with
    | some id =>
      let binding ← Traced.ofExcept (k.binding id)
      Traced.annotate "status" (.str "match")
      let action ← Traced.ofExcept (k.action binding.action)
      return .found binding action tokens.length
    | none =>
      if isStart (k.table mode) tokens then
        Traced.annotate "status" (.str "pending")
        return .pending tokens.length
      else
        Traced.annotate "status" (.str "miss")
        return .miss

end Keymap

end LinkerScriptEditor
