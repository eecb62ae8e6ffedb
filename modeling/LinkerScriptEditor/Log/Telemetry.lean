import LinkerScriptEditor.Log.Traced
import LinkerScriptEditor.Settings

/-!
# Telemetry

Loggers are made on demand under the active configuration and are kept until the configuration
changes. A configuration comes from the environment, from a preset that starts from the
environment's log file, or ready-made from the host.
-/

namespace LinkerScriptEditor

/-- What can be set about the log. -/
structure LogSettings where
  level : String
  console : Bool
  color : Bool
  json : Bool
  logFile : Option String
  profile : Bool
deriving DecidableEq

inductive LogOption
  | minLevel (level : String)
  | console (on : Bool)
  | color (on : Bool)
  | json (on : Bool)
  | file (path : String)
  | profiling (on : Bool)
deriving DecidableEq

/-- A list of options, or something that the host brought. -/
inductive LogConfig
  | options (list : List LogOption)
  | foreign (text : String)
deriving DecidableEq

/-- A text that is there and not empty. -/
def nonempty (text : Option String) : Option String := text.filter (· != "")

namespace LogSettings

def default : LogSettings := ⟨"WARNING", true, true, false, none, true⟩

def isTruthy (text : String) : Bool :=
  ["1", "true", "yes", "on"].contains (CharClass.lowerText (CharClass.trim text))

/-- A variable that is set means yes if it is one of the truthy words and no otherwise. -/
def flag (environment : Environment) (name : String) (fallback : Bool) : Bool :=
  ((OrderedMap.get? name environment).map isTruthy).getD fallback

def ofEnvironment (environment : Environment) : LogSettings where
  level := CharClass.upperText
    ((nonempty (OrderedMap.get? "LD_MODE_LOG_LEVEL" environment)).getD default.level)
  console := !flag environment "LD_MODE_DISABLE_CONSOLE" false
  color := !flag environment "LD_MODE_NO_COLOR" false
  json := flag environment "LD_MODE_LOG_JSON" false
  logFile := nonempty (OrderedMap.get? "LD_MODE_LOG_FILE" environment)
  profile := flag environment "LD_MODE_PROFILE" true

def names : List String := ["level", "console", "color", "json", "log_file", "profile"]

/-- The settings that a host gives by their names; the others are the default ones. -/
def ofData (data : Datum) : Except Fault LogSettings :=
  let flag (name : String) (fallback : Bool) := ((data.field? name).map Datum.isTrue).getD fallback
  match data.fields.find? fun field => !names.contains field.1 with
  | some (name, _) => .error (.unknownSetting name)
  | none => .ok
    { level := ((data.field? "level").bind Datum.text?).getD default.level
      console := flag "console" default.console
      color := flag "color" default.color
      json := flag "json" default.json
      logFile := (data.field? "log_file").bind Datum.text?
      profile := flag "profile" default.profile }

def toOptions (s : LogSettings) : List LogOption :=
  [.minLevel s.level, .console s.console] ++
    (if s.console then [.color s.color] else []) ++
    (if s.json then [.json true] else []) ++
    (nonempty s.logFile).toList.map .file ++
    [.profiling s.profile]

def development (s : LogSettings) : LogSettings :=
  { default with level := "DEBUG", logFile := s.logFile }

/-- Nothing may reach the console. -/
def quiet (s : LogSettings) : LogSettings := { default with console := false, logFile := s.logFile }

def production (s : LogSettings) : LogSettings :=
  { default with
    level := "INFO"
    console := false
    logFile := some ((nonempty s.logFile).getD "ld_mode.log") }

def presets : OrderedMap String (LogSettings → LogSettings) :=
  [("development", development), ("quiet", quiet), ("production", production)]

end LogSettings

/-- A logger; the serial number tells loggers of one name apart. -/
structure Logger where
  name : String
  config : LogConfig
  serial : Nat
deriving DecidableEq

structure Telemetry where
  environment : Environment
  active : Option LogConfig
  loggers : OrderedMap String Logger
  made : Nat

namespace Telemetry

def ofEnvironment (environment : Environment) : Telemetry := ⟨environment, none, [], 0⟩

def environmentConfig (t : Telemetry) : LogConfig :=
  .options (LogSettings.ofEnvironment t.environment).toOptions

/-- The configuration that a ready-made one, a preset or neither leads to. -/
def chosen (config preset : Option String) (t : Telemetry) : Except Fault LogConfig :=
  match nonempty preset with
  | some name =>
    if (nonempty config).isSome then .error .configAndPreset
    else match OrderedMap.get? (CharClass.lowerText name) LogSettings.presets with
      | none => .error (.unknownPreset name)
      | some apply => .ok (match config with
        | some text => .foreign text
        | none => .options (apply (.ofEnvironment t.environment)).toOptions)
  | none => .ok (match config with
    | some text => .foreign text
    | none => t.environmentConfig)

/-- Changes the active configuration and forgets all loggers. -/
def configure (config preset : Option String) : Traced Telemetry Unit := do
  let chosen ← Traced.ofExcept ((← get).chosen config preset)
  modify fun t => { t with active := some chosen, loggers := [] }

/-- The logger of a name, which is made if there is none. No name means the default one. -/
def logger (name : Option String) : Traced Telemetry Logger := do
  let t ← get
  let config := t.active.getD t.environmentConfig
  let name := (nonempty name).getD defaultLogger
  match OrderedMap.get? name t.loggers with
  | some logger =>
    set { t with active := some config }
    return logger
  | none =>
    let logger : Logger := ⟨name, config, t.made⟩
    set { t with
      active := some config
      loggers := OrderedMap.put name logger t.loggers
      made := t.made + 1 }
    Traced.write ⟨name, .create⟩
    return logger

def levels : List LogLevel := [.debug, .info, .warning, .error, .critical]

/-- Writes an event at a level given by its name, in any case. The level `notice` takes no fields,
so there they become part of the message. -/
def event (name level : String) (data : OrderedMap String Datum) (loggerName : Option String) :
    Traced Telemetry Unit := do
  let logger ← logger loggerName
  let lower := CharClass.lowerText level
  match levels.find? (·.name == lower) with
  | some level => Traced.write (.event logger.name level name data)
  | none =>
    if lower = "notice" then
      let payload := Datum.dict (eventPayload name data)
      Traced.write ⟨logger.name, .notice s!"{eventMessage name} {payload.print}"⟩
    else Traced.fail (.unsupportedLevel level)

/-- A handle for a span of a logger. -/
def openSpan (name : String) (loggerName component : Option String)
    (data : OrderedMap String Datum) : Traced Telemetry SpanHandle := do
  let logger ← logger loggerName
  return .ofData logger.name name component data

end Telemetry

end LinkerScriptEditor
