import LinkerScriptEditor.Log.Telemetry

/-!
# Telemetry in use

A session keeps the spans that are open, innermost first, and for each name the serial number of
the logger handed out last. Notes and failures go to the innermost span.
-/

namespace LinkerScriptEditor

structure LogSession where
  telemetry : Telemetry
  spans : List SpanHandle
  handed : OrderedMap String Nat

namespace LogSession

def ofEnvironment (environment : Environment) : LogSession := ⟨.ofEnvironment environment, [], []⟩

def telemetryPart : Lens LogSession Telemetry := ⟨telemetry, fun t s => { s with telemetry := t }⟩

def onTelemetry {α : Type} (x : Traced Telemetry α) : Traced LogSession α :=
  Traced.zoom telemetryPart x

/-- Hands out a logger and says whether it is the same as the last time. -/
def handOut (name : Option String) : Traced LogSession (Logger × Bool) := do
  let logger ← onTelemetry (Telemetry.logger name)
  let known := OrderedMap.get? logger.name (← get).handed == some logger.serial
  modify fun s => { s with handed := OrderedMap.put logger.name logger.serial s.handed }
  return (logger, known)

/-- Does work with a span among the open ones. -/
def opened {α : Type} (body : Traced LogSession α) : Traced (LogSession × SpanHandle) α :=
  fun (s, handle) =>
    let trace := body { s with spans := handle :: s.spans }
    let left := trace.state.spans
    ⟨trace.log, trace.outcome, ({ trace.state with spans := left.tail }, left.headD handle)⟩

/-- Does work inside a new span and returns the handle as the work left it. -/
def inSpan (name : String) (loggerName component : Option String)
    (data : OrderedMap String Datum) (body : Traced LogSession Unit) :
    Traced LogSession SpanHandle := do
  let handle ← onTelemetry (Telemetry.openSpan name loggerName component data)
  Traced.span handle do
    opened body
    return (← get).2

/-- Works on the innermost span, if one is open. -/
def inInnermost (x : Traced (LogSession × SpanHandle) Unit) : Traced LogSession Unit := fun s =>
  match s.spans with
  | [] => ⟨[], .ok (), s⟩
  | handle :: rest =>
    let trace := x (s, handle)
    ⟨trace.log, trace.outcome, { trace.state.1 with spans := trace.state.2 :: rest }⟩

/-- No span is open between the steps of a host. -/
def settle (s : LogSession) : LogSession := { s with spans := [] }

end LogSession

end LinkerScriptEditor
