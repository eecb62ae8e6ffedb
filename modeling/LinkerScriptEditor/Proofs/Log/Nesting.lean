import LinkerScriptEditor.Log.Traced

/-!
# Nested spans

What a stretch of work writes is nested if every span in it is closed before the work goes on, and
if a fault that ends the work is written once for each span that it crosses, inside the span. Then
whatever is taken is given back in reverse order, also when the work fails.
-/

namespace LinkerScriptEditor

/-- Something that a logger holds from one call to another. -/
inductive LogFrame
  | context (key : String)
  | component (name : String)
  | profile (name : String)
deriving DecidableEq

namespace LogCall

def taken? : LogCall → Option LogFrame
  | addContext key _ => some (.context key)
  | enterComponent name => some (.component name)
  | enterProfile name => some (.profile name)
  | _ => none

def released? : LogCall → Option LogFrame
  | removeContext key => some (.context key)
  | exitComponent name => some (.component name)
  | exitProfile name => some (.profile name)
  | _ => none

end LogCall

namespace LogEntry

/-- What a failed span writes. -/
def isFailure (e : LogEntry) : Bool :=
  match e.call with
  | .record level message _ => level = .error && message == "span::fail"
  | _ => false

/-- An entry that is none of a span's calls. -/
structure IsPlain (e : LogEntry) : Prop where
  taken : e.call.taken? = none
  released : e.call.released? = none
  failure : e.isFailure = false

theorem isPlain_event (logger : String) (level : LogLevel) (name : String)
    (data : OrderedMap String Datum) : (event logger level name data).IsPlain where
  taken := rfl
  released := rfl
  failure := by
    have other : eventMessage name ≠ "span::fail" := by
      intro same
      have first := congrArg (fun text => text.toList.head?) same
      simp [eventMessage, toString] at first
    simp [event, isFailure, other]

/-- What is held after some entries by someone who holds some frames already, the frame taken last
in front. There is no answer if anything but that frame is released. -/
def held? : List (String × LogFrame) → List LogEntry → Option (List (String × LogFrame))
  | held, [] => some held
  | held, e :: rest =>
    match e.call.taken?, e.call.released? with
    | some frame, _ => held? ((e.logger, frame) :: held) rest
    | none, none => held? held rest
    | none, some frame =>
      match held with
      | [] => none
      | last :: others => if last = (e.logger, frame) then held? others rest else none

theorem held?_cons_of_plain {e : LogEntry} (plain : e.IsPlain) (held : List (String × LogFrame))
    (rest : List LogEntry) : held? held (e :: rest) = held? held rest := by
  rw [held?, plain.taken, plain.released]

end LogEntry

namespace SpanHandle

/-- The same span, perhaps with other notes. -/
structure Same (h other : SpanHandle) : Prop where
  logger : other.logger = h.logger
  name : other.name = h.name
  component : other.component = h.component

theorem Same.refl (h : SpanHandle) : h.Same h := ⟨rfl, rfl, rfl⟩

theorem Same.annotate {h other : SpanHandle} (same : h.Same other) (key : String) (value : Datum) :
    h.Same (other.annotate key value) := ⟨same.logger, same.name, same.component⟩

/-- What a span holds while it is open, in the order in which it is taken. -/
def frames (h : SpanHandle) : List (String × LogFrame) :=
  h.notes.map (fun note => (h.logger, .context note.1)) ++
    h.tracked.toList.map (fun name => (h.logger, .component name)) ++ [(h.logger, .profile h.name)]

open LogEntry

variable (h : SpanHandle) (held : List (String × LogFrame)) (rest : List LogEntry)

theorem isFailure_failure (reason : String) : (h.failure reason).isFailure = true := rfl

theorem filter_opening : h.opening.filter isFailure = [] := by
  rw [List.filter_eq_nil_iff]
  intro e mem
  simp only [opening, List.mem_append, List.mem_map, List.mem_singleton] at mem
  rcases mem with (⟨note, -, rfl⟩ | ⟨name, -, rfl⟩) | rfl <;> simp [entry, isFailure]

theorem filter_closing : h.closing.filter isFailure = [] := by
  rw [List.filter_eq_nil_iff]
  intro e mem
  simp only [closing, List.cons_append, List.mem_cons, List.mem_append, List.mem_map] at mem
  rcases mem with rfl | ⟨name, -, rfl⟩ | ⟨note, -, rfl⟩ <;> simp [entry, isFailure]

theorem held?_addContexts (notes : LogFields) :
    held? held (notes.map (fun note => h.entry (.addContext note.1 note.2)) ++ rest) =
      held? ((notes.map fun note => (h.logger, LogFrame.context note.1)).reverse ++ held) rest := by
  induction notes generalizing held with
  | nil => rfl
  | cons note notes ih =>
      have taken := ih ((h.logger, .context note.1) :: held)
      simpa [held?, LogCall.taken?, entry] using taken

theorem held?_removeContexts (notes : LogFields) :
    held? (notes.map (fun note => (h.logger, LogFrame.context note.1)) ++ held)
        (notes.map (fun note => h.entry (.removeContext note.1)) ++ rest) = held? held rest := by
  induction notes with
  | nil => rfl
  | cons note notes ih => simpa [held?, LogCall.taken?, LogCall.released?, entry] using ih

/-- Opening a span takes its frames. -/
theorem held?_opening :
    held? held (h.opening ++ rest) = held? (h.frames.reverse ++ held) rest := by
  rw [opening, List.append_assoc, List.append_assoc, held?_addContexts]
  cases tracked : h.tracked <;> simp [frames, tracked, held?, LogCall.taken?, entry]

/-- Closing a span gives its frames back, the last one first. -/
theorem held?_closing :
    held? (h.frames.reverse ++ held) (h.closing ++ rest) = held? held rest := by
  have contexts := h.held?_removeContexts held rest h.notes.reverse
  rw [List.map_reverse] at contexts
  cases tracked : h.tracked <;>
    simpa [frames, closing, tracked, held?, LogCall.taken?, LogCall.released?, entry] using contexts

end SpanHandle

/-- How a stretch of work ends: it is done, or it is left with a fault that has crossed some spans,
the innermost first. -/
inductive WorkEnd
  | done
  | left (fault : Fault) (crossed : List SpanHandle)

/-- The failures that are written on the way. -/
def WorkEnd.failures : WorkEnd → List LogEntry
  | done => []
  | left fault crossed => crossed.map fun h => h.failure fault.reason

/-- Entries that consist of plain ones and of spans, one inside the other. A fault ends the work in
every span that it crosses; there it is written before the span is closed. -/
inductive Nests : WorkEnd → List LogEntry → Prop
  | done : Nests .done []
  | fault (fault : Fault) : Nests (.left fault []) []
  | plain {e : LogEntry} {ending : WorkEnd} {rest : List LogEntry} (plain : e.IsPlain)
      (after : Nests ending rest) : Nests ending (e :: rest)
  | span {ending : WorkEnd} {inner rest : List LogEntry} (h : SpanHandle)
      (within : Nests .done inner) (after : Nests ending rest) :
      Nests ending (h.opening ++ inner ++ h.closing ++ rest)
  | crossed {h last : SpanHandle} {fault : Fault} {crossed : List SpanHandle}
      {inner : List LogEntry} (same : h.Same last) (within : Nests (.left fault crossed) inner) :
      Nests (.left fault (crossed ++ [last]))
        (h.opening ++ inner ++ [last.failure fault.reason] ++ h.closing)

namespace Nests

variable {ending : WorkEnd} {first second log : List LogEntry}

theorem append (before : Nests .done first) (after : Nests ending second) :
    Nests ending (first ++ second) := by
  generalize completed : WorkEnd.done = earlier at before
  induction before with
  | done => exact after
  | fault fault => cases completed
  | plain plain _ ih => exact .plain plain (ih completed)
  | span h within _ _ ih =>
      rw [List.append_assoc _ _ second]
      exact .span h within (ih completed)
  | crossed same within ih => cases completed

theorem of_plain (plain : ∀ e ∈ log, e.IsPlain) : Nests .done log := by
  induction log with
  | nil => exact .done
  | cons e rest ih =>
      exact .plain (plain e (List.mem_cons_self ..))
        (ih fun e mem => plain e (List.mem_cons_of_mem _ mem))

/-- One failure is written for each span that is crossed, and no other. -/
theorem filter_isFailure (nests : Nests ending log) :
    log.filter LogEntry.isFailure = ending.failures := by
  induction nests with
  | done => rfl
  | fault fault => rfl
  | plain plain _ ih => rw [List.filter_cons_of_neg (by simp [plain.failure]), ih]
  | span h _ _ within after =>
      rw [List.filter_append, List.filter_append, List.filter_append, h.filter_opening, within,
        h.filter_closing, after]
      rfl
  | @crossed h last fault crossed inner same _ ih =>
      rw [List.filter_append, List.filter_append, List.filter_append, h.filter_opening, ih,
        h.filter_closing, List.filter_cons_of_pos (last.isFailure_failure fault.reason)]
      simp [WorkEnd.failures]

/-- Whatever is taken is given back in reverse order. -/
theorem held?_append (nests : Nests ending log) (held : List (String × LogFrame))
    (rest : List LogEntry) : LogEntry.held? held (log ++ rest) = LogEntry.held? held rest := by
  induction nests generalizing held rest with
  | done => rfl
  | fault fault => rfl
  | plain plain _ ih => rw [List.cons_append, LogEntry.held?_cons_of_plain plain, ih]
  | span h _ _ within after =>
      simp only [List.append_assoc]
      rw [h.held?_opening, within, h.held?_closing, after]
  | @crossed h last fault crossed inner same _ ih =>
      simp only [List.append_assoc]
      rw [h.held?_opening, ih]
      rw [List.singleton_append]
      change LogEntry.held? _ (h.closing ++ rest) = _
      exact h.held?_closing held rest

theorem held?_eq (nests : Nests ending log) (held : List (String × LogFrame)) :
    LogEntry.held? held log = some held := by
  have nothing := nests.held?_append held []
  rwa [List.append_nil] at nothing

end Nests

end LinkerScriptEditor
