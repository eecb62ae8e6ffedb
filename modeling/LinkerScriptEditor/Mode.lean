import LinkerScriptEditor.Classification
import LinkerScriptEditor.Command
import LinkerScriptEditor.Keymap
import LinkerScriptEditor.Text.Glob

/-!
# Modes

A descriptor says all that a host needs to offer a mode: the files it is for, its comment marks,
its highlighting rules, its actions and its bindings. The linker script mode looks keys up in the
keymap and types what is not bound; a host may bring modes of its own.
-/

namespace LinkerScriptEditor

/-- A mode of the host's: its name and what it does when it is entered, left or given a key. -/
structure HostMode where
  name : String
  enter : Option String → Traced Workspace Unit
  leave : Option String → Traced Workspace Unit
  press : KeyPress → Traced Workspace KeyResult

inductive Behaviour
  | linkerScript
  | host (mode : HostMode)

structure Descriptor where
  name : String
  behaviour : Behaviour
  filePatterns : List String
  commentStart : String
  commentEnd : String
  rules : List PatternRule
  actions : List (Action Handler)
  bindings : List Binding

namespace Descriptor

/-- Every binding of a descriptor is for its mode. -/
def check (d : Descriptor) : Except Fault Descriptor :=
  if d.name = "" then .error .emptyMode
  else match d.bindings.find? fun b => b.mode != d.name with
    | some b => .error (.foreignBinding b.id b.mode d.name)
    | none => .ok d

/-- The part of a path after the last slash. -/
def baseName (path : String) : List Char := (splitOn '/' path.toList).getLastD []

def matchesPath (d : Descriptor) (path : String) : Bool :=
  d.filePatterns.any fun pattern => (Glob.parse pattern).test (baseName path)

end Descriptor

namespace LinkerScriptMode

def name : String := "ld-script"

def filePatterns : List String := ["*.ld", "*.lds"]

def action (id description : String) (command : Traced Workspace KeyResult) : Action Handler :=
  ⟨id, Outcome.result <$> command, some description⟩

def actions : List (Action Handler) :=
  [action "indent.line" "Indent the current line" Command.indentLine,
    action "indent.newline" "Insert a newline and indent it" Command.newlineAndIndent,
    action "indent.region" "Indent the selection, or the whole buffer" Command.indentRegion,
    action "edit.delete_backward" "Delete the character before the cursor" Command.deleteBackward,
    action "edit.undo" "Undo" Command.undo,
    action "edit.redo" "Redo" Command.redo,
    action "cursor.left" "" (Command.moveCursor .left),
    action "cursor.right" "" (Command.moveCursor .right),
    action "cursor.up" "" (Command.moveCursor .up),
    action "cursor.down" "" (Command.moveCursor .down)]

def binding (id action description : String) (keys : List String) : Binding :=
  ⟨s!"{name}.{id}", name, ⟨keys⟩, action, some description⟩

/-- The sequences are written in normal form. -/
def bindings : List Binding :=
  [binding "tab" "indent.line" "Indent line" ["TAB"],
    binding "enter" "indent.newline" "Newline and indent" ["ENTER"],
    binding "indent_region" "indent.region" "Indent region" ["ALT+CTRL+\\"],
    binding "indent_region_seq" "indent.region" "Indent region" ["CTRL+x", "TAB"],
    binding "backspace" "edit.delete_backward" "" ["BACKSPACE"],
    binding "undo" "edit.undo" "" ["CTRL+z"],
    binding "redo" "edit.redo" "" ["CTRL+y"],
    binding "left" "cursor.left" "" ["LEFT"],
    binding "right" "cursor.right" "" ["RIGHT"],
    binding "up" "cursor.up" "" ["UP"],
    binding "down" "cursor.down" "" ["DOWN"]]

def descriptor : Descriptor where
  name := name
  behaviour := .linkerScript
  filePatterns := filePatterns
  commentStart := s!"{Comment.opening} "
  commentEnd := s!" {Comment.closing}"
  rules := PatternRule.table
  actions := actions
  bindings := bindings

/-- Puts the actions and the bindings of the mode into a keymap, except some bindings, and further
bindings after them. -/
def load (replace : Bool) (excluded : List String) (extra : List Binding) :
    Traced (Keymap Handler) Unit := do
  for a in actions do
    Keymap.registerAction a replace
  for b in bindings do
    if !excluded.contains b.id then
      Keymap.registerBinding b replace
  for b in extra do
    Keymap.registerBinding b replace

end LinkerScriptMode

end LinkerScriptEditor
