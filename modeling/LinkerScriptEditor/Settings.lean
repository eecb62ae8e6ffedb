import LinkerScriptEditor.Indent
import LinkerScriptEditor.Log.Traced
import LinkerScriptEditor.Text.Integer

/-!
# Indentation settings

The indent unit and style come from an override if there is one, else from the environment, else
from the defaults. Values of the environment that make no sense are passed over with a warning, at
every reading.
-/

namespace LinkerScriptEditor

/-- The variables of the environment that are set. -/
abbrev Environment := OrderedMap String String

namespace Environment

def hasNull (text : String) : Bool := text.toList.contains '\x00'

/-- Sets a variable, if it can have such a name and such a value. -/
def set (name value : String) (environment : Environment) : Except Fault Environment :=
  if hasNull name || hasNull value then .error .embeddedNull
  else if name.toList.contains '=' then .error .badVariableName
  else if name = "" then .error .noVariableName
  else .ok (OrderedMap.put name value environment)

/-- The environment of the given variables. -/
def ofVariables (entries : OrderedMap String String) : Except Fault Environment :=
  entries.foldlM (fun environment entry => set entry.1 entry.2 environment) []

end Environment

structure Settings where
  environment : Environment
  unitOverride : Option Int
  styleOverride : Option Indent.Style

namespace Settings

def ofEnvironment (environment : Environment) : Settings := ⟨environment, none, none⟩

def unitVariable : String := "LD_MODE_INDENT_UNIT"
def styleVariable : String := "LD_MODE_INDENT_STYLE"

def defaultUnit : Int := 4
def defaultStyle : Indent.Style := .faithful

/-- A unit is a positive integer. -/
def unitOfText? (text : String) : Option Int := (Integer.parse? text).filter (0 < ·)

/-- Case and surrounding white space do not matter. -/
def styleOfText? (text : String) : Option Indent.Style :=
  Indent.Style.ofName? (CharClass.lowerText (CharClass.trim text))

/-- What the environment says, unless an override makes it irrelevant. -/
def unitText? (s : Settings) : Option String :=
  if s.unitOverride.isSome then none else OrderedMap.get? unitVariable s.environment

def styleText? (s : Settings) : Option String :=
  if s.styleOverride.isSome then none else OrderedMap.get? styleVariable s.environment

/-- Columns for each level of braces. -/
def unit (s : Settings) : Int :=
  s.unitOverride.getD ((s.unitText?.bind unitOfText?).getD defaultUnit)

def style (s : Settings) : Indent.Style :=
  s.styleOverride.getD ((s.styleText?.bind styleOfText?).getD defaultStyle)

def warning (name value : String) (fallback : Datum) : LogEntry :=
  .event defaultLogger .warning name [("value", .str value), ("fallback", fallback)]

def unitWarnings (s : Settings) : List LogEntry :=
  ((s.unitText?.filter fun text => (unitOfText? text).isNone).toList).map
    (warning "config.invalid_indent_unit" · (.int defaultUnit))

def styleWarnings (s : Settings) : List LogEntry :=
  ((s.styleText?.filter fun text => (styleOfText? text).isNone).toList).map
    (warning "config.invalid_indent_style" · (.str defaultStyle.name))

/-- Reads the unit. -/
def readUnit : Traced Settings Int := fun s => ⟨s.unitWarnings, .ok s.unit, s⟩

/-- Reads the style. -/
def readStyle : Traced Settings Indent.Style := fun s => ⟨s.styleWarnings, .ok s.style, s⟩

def setUnit (value : Datum) : Traced Settings Unit := do
  match value with
  | .int n =>
    if 0 < n then
      modify fun s => { s with unitOverride := some n }
      Traced.event .info "config.indent_unit" [("width", value)]
    else Traced.fail (.badUnit value)
  | _ => Traced.fail (.badUnit value)

def setStyle (value : Datum) : Traced Settings Unit := do
  match Indent.Style.ofDatum? value with
  | some style =>
    modify fun s => { s with styleOverride := some style }
    Traced.event .info "config.indent_style" [("style", .str style.name)]
  | none => Traced.fail (.badStyle value)

def resetUnit (s : Settings) : Settings := { s with unitOverride := none }

def resetStyle (s : Settings) : Settings := { s with styleOverride := none }

/-- Sets a variable of the environment, or removes it. -/
def setVariable (name : String) (value : Option String) : Traced Settings Unit := do
  let s ← get
  let environment ← Traced.ofExcept (match value with
    | some value => Environment.set name value s.environment
    | none => .ok (OrderedMap.erase name s.environment))
  set { s with environment }

end Settings

end LinkerScriptEditor
