import LinkerScriptEditor.Fault

/-!
# Log entries

An entry is one call of a named logger. A span is a stretch of work that a logger surrounds with
such calls: it adds the notes of the span as context, enters its component and its profile, and
leaves them in reverse order.
-/

namespace LinkerScriptEditor

inductive LogLevel
  | debug
  | info
  | warning
  | error
  | critical
deriving DecidableEq

def LogLevel.name : LogLevel → String
  | debug => "debug"
  | info => "info"
  | warning => "warning"
  | error => "error"
  | critical => "critical"

/-- Notes of a span or fields of an event, as they are written to the log. -/
abbrev LogFields := OrderedMap String String

inductive LogCall
  | create
  | addContext (key value : String)
  | removeContext (key : String)
  | enterComponent (name : String)
  | exitComponent (name : String)
  | enterProfile (name : String)
  | exitProfile (name : String)
  | record (level : LogLevel) (message : String) (fields : LogFields)
  | notice (message : String)
deriving DecidableEq

structure LogEntry where
  logger : String
  call : LogCall
deriving DecidableEq

def LogFields.ofData (data : OrderedMap String Datum) : LogFields :=
  data.map fun field => (field.1, field.2.plain)

/-- The payload of an event: its name, then its data, which may replace the name. -/
def eventPayload (name : String) (data : OrderedMap String Datum) : OrderedMap String Datum :=
  OrderedMap.putAll [("event", .str name)] data

def eventMessage (name : String) : String := s!"event::{name}"

/-- The logger of everything that names no other. -/
def defaultLogger : String := "ld_mode"

def LogEntry.event (logger : String) (level : LogLevel) (name : String)
    (data : OrderedMap String Datum) : LogEntry :=
  ⟨logger, .record level (eventMessage name) (.ofData (eventPayload name data))⟩

/-- A span that is open: its logger, its name, the component it tracks and its notes so far. -/
structure SpanHandle where
  logger : String
  name : String
  component : Option String
  notes : LogFields
deriving DecidableEq

namespace SpanHandle

/-- A span whose notes are still data. -/
def ofData (logger name : String) (component : Option String) (data : OrderedMap String Datum) :
    SpanHandle :=
  ⟨logger, name, component, .ofData data⟩

/-- An empty name stands for no component. -/
def tracked (h : SpanHandle) : Option String := h.component.filter (· != "")

def entry (h : SpanHandle) (call : LogCall) : LogEntry := ⟨h.logger, call⟩

/-- The calls made before the work of a span. -/
def opening (h : SpanHandle) : List LogEntry :=
  h.notes.map (fun note => h.entry (.addContext note.1 note.2)) ++
    h.tracked.toList.map (fun name => h.entry (.enterComponent name)) ++
    [h.entry (.enterProfile h.name)]

/-- The calls made after it. -/
def closing (h : SpanHandle) : List LogEntry :=
  h.entry (.exitProfile h.name) ::
    h.tracked.toList.map (fun name => h.entry (.exitComponent name)) ++
    h.notes.reverse.map (fun note => h.entry (.removeContext note.1))

def annotate (key : String) (value : Datum) (h : SpanHandle) : SpanHandle :=
  { h with notes := OrderedMap.put key value.plain h.notes }

/-- The entry that marks the span as failed. -/
def failure (h : SpanHandle) (reason : String) : LogEntry :=
  let fields := OrderedMap.putAll [("span", h.name)] h.notes
  let fields := OrderedMap.putAll fields (h.tracked.toList.map ("component", ·))
  h.entry (.record .error "span::fail" (OrderedMap.put "reason" reason fields))

end SpanHandle

end LinkerScriptEditor
