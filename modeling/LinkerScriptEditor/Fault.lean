import LinkerScriptEditor.Datum
import LinkerScriptEditor.Position
import LinkerScriptEditor.Text.Utf8

/-!
# Faults

Every way in which an operation of the editor can be refused, with the message that goes with it.
-/

namespace LinkerScriptEditor

/-- Why a file cannot be opened. -/
inductive FileRefusal
  | missing
  | notDirectory
  | isDirectory
  | nameTooLong
  | denied
deriving DecidableEq

namespace FileRefusal

def reason : FileRefusal → String
  | missing => "No such file or directory"
  | notDirectory => "Not a directory"
  | isDirectory => "Is a directory"
  | nameTooLong => "File name too long"
  | denied => "Permission denied"

/-- The error number of the operating system. -/
def number : FileRefusal → Nat
  | missing => 2
  | denied => 13
  | notDirectory => 20
  | isDirectory => 21
  | nameTooLong => 36

def all : List FileRefusal := [missing, notDirectory, isDirectory, nameTooLong, denied]

def ofNumber? (n : Nat) : Option FileRefusal := all.find? (·.number == n)

end FileRefusal

/-- What kind of fault a host's own code reports. -/
inductive ReportKind
  | failure
  | badValue
  | unknownKey
  | badType
deriving DecidableEq

inductive Fault
  | noLine (line : Int)
  | rowOutside (row : Int) (last : Int)
  | rowMissing (position : Position)
  | columnOutside (position : Position) (width : Nat)
  | undoLimit
  | undoLimitTooLarge
  | marginTooWide
  | outOfMemory
  | tooManyDigits
  | noReceiver (part : String)
  | notIterable (kind : String)
  | unknownSetting (name : String)
  | unknownStyle (value : Datum)
  | badUnit (value : Datum)
  | badStyle (value : Datum)
  | emptySequence
  | emptyAction
  | noHandler
  | emptyBinding
  | emptyBindingMode
  | emptyBindingAction
  | unknownAction (action : String)
  | unknownBinding (binding : String)
  | danglingBinding (binding action : String)
  | actionTaken (action : String)
  | bindingTaken (binding : String)
  | conflict (binding : String) (others : List String)
  | emptyMode
  | foreignBinding (binding target mode : String)
  | modeTaken (mode : String)
  | unknownMode (mode : String)
  | noActiveMode
  | noKeymap
  | unsupportedLevel (level : String)
  | configAndPreset
  | unknownPreset (preset : String)
  | unhashable (kind : String)
  | file (refusal : FileRefusal) (path : String)
  | embeddedNull
  | badVariableName
  | noVariableName
  | undecodable (fault : Utf8.Fault)
  | reported (kind : ReportKind) (message : String)

namespace Fault

def message : Fault → String
  | noLine line => s!"Line {line} out of range"
  | rowOutside row last => s!"row {row} outside 0..{last}"
  | rowMissing position => s!"row {position.row} out of range"
  | columnOutside position width =>
    s!"column {position.column} outside 0..{width} on row {position.row}"
  | undoLimit => "undo limit must be positive"
  | undoLimitTooLarge => "Python int too large to convert to C ssize_t"
  | marginTooWide => "cannot fit 'int' into an index-sized integer"
  | outOfMemory => ""
  | tooManyDigits => "Exceeds the limit (4300 digits) for integer string conversion; " ++
    "use sys.set_int_max_str_digits() to increase the limit"
  | noReceiver part => s!"'NoneType' object has no attribute '{part}'"
  | unknownSetting name =>
    s!"TelemetrySettings.__init__() got an unexpected keyword argument '{name}'"
  | notIterable kind => s!"'{kind}' object is not iterable"
  | unknownStyle value => s!"{value.print} is not a valid IndentStyle"
  | badUnit value => s!"indent unit must be a positive integer, got {value.print}"
  | badStyle value => s!"unknown indent style {value.print}"
  | emptySequence => "KeySequence requires at least one token"
  | emptyAction => "ActionRef id cannot be empty"
  | noHandler => "handler must be callable"
  | emptyBinding => "binding id cannot be empty"
  | emptyBindingMode => "binding mode cannot be empty"
  | emptyBindingAction => "binding action_id cannot be empty"
  | unknownAction action => s!"Action '{action}' is not registered"
  | unknownBinding binding => s!"Binding '{binding}' is not registered"
  | danglingBinding binding action => s!"Binding '{binding}' references unknown action '{action}'"
  | actionTaken action => s!"Action '{action}' already registered"
  | bindingTaken binding => s!"Binding id '{binding}' already registered"
  | conflict binding others =>
    s!"Binding '{binding}' conflicts with {Datum.print (.list (others.map .str))}"
  | emptyMode => "mode name cannot be empty"
  | foreignBinding binding target mode =>
    s!"Binding '{binding}' targets mode '{target}', not '{mode}'"
  | modeTaken mode => s!"Mode '{mode}' already registered"
  | unknownMode mode => s!"Unknown mode '{mode}'"
  | noActiveMode => "No active mode"
  | noKeymap => "ModeContext.extras missing 'keymap_registry'"
  | unsupportedLevel level => s!"Unsupported log level '{level}'."
  | configAndPreset => "Provide either `config` or `preset`, not both."
  | unknownPreset preset => s!"Unknown preset '{preset}'."
  | unhashable kind => s!"unhashable type: '{kind}'"
  | file refusal path => s!"[Errno {refusal.number}] {refusal.reason}: {Quoted.encode path}"
  | embeddedNull => "embedded null byte"
  | badVariableName => "illegal environment variable name"
  | noVariableName => "[Errno 22] Invalid argument"
  | undecodable fault => fault.message
  | reported _ text => text

/-- The position that a fault of a document is about. -/
def position? : Fault → Option Position
  | rowOutside row _ => some ⟨row, 0⟩
  | rowMissing position => some position
  | columnOutside position _ => some position
  | _ => none

/-- A look-up of something that is not there. -/
def isLookup : Fault → Bool
  | unknownAction _ | unknownBinding _ | danglingBinding .. | unknownMode _ => true
  | reported .unknownKey _ => true
  | _ => false

/-- The message as the log gives it: that of a failed look-up is quoted. -/
def reason (fault : Fault) : String :=
  if fault.isLookup then Quoted.encode fault.message else fault.message

end Fault

end LinkerScriptEditor
