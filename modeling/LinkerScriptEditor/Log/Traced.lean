import LinkerScriptEditor.Log

/-!
# Traced steps

A traced step changes a state, may fail, and writes to the log. What it wrote is part of its
result, also when it fails, and so is the state that it left behind: nothing is rolled back. The
log is never read by a step, so entries have no influence on outcomes and states.
-/

namespace LinkerScriptEditor

/-- What a step did: the entries it wrote, in order, its outcome and the state it left. -/
structure Trace (σ α : Type) where
  log : List LogEntry
  outcome : Except Fault α
  state : σ

def Traced (σ α : Type) : Type := σ → Trace σ α

/-- A part of a state. -/
structure Lens (σ τ : Type) where
  get : σ → τ
  set : τ → σ → σ

namespace Traced
variable {σ τ α β : Type}

def pure (a : α) : Traced σ α := fun s => ⟨[], .ok a, s⟩

def bind (x : Traced σ α) (f : α → Traced σ β) : Traced σ β := fun s =>
  let first := x s
  match first.outcome with
  | .error fault => ⟨first.log, .error fault, first.state⟩
  | .ok a =>
    let second := f a first.state
    ⟨first.log ++ second.log, second.outcome, second.state⟩

instance : Monad (Traced σ) where
  pure := Traced.pure
  bind := Traced.bind

instance : MonadStateOf σ (Traced σ) where
  get s := ⟨[], .ok s, s⟩
  set s _ := ⟨[], .ok (), s⟩
  modifyGet f s := ⟨[], .ok (f s).1, (f s).2⟩

def fail (fault : Fault) : Traced σ α := fun s => ⟨[], .error fault, s⟩

def ofExcept (e : Except Fault α) : Traced σ α := fun s => ⟨[], e, s⟩

instance : MonadLift (Except Fault) (Traced σ) := ⟨ofExcept⟩

def write (entry : LogEntry) : Traced σ Unit := fun s => ⟨[entry], .ok (), s⟩

/-- Works on a part of the state. -/
def zoom (l : Lens σ τ) (x : Traced τ α) : Traced σ α := fun s =>
  let part := x (l.get s)
  ⟨part.log, part.outcome, l.set part.state s⟩

/-- Writes an event to the log. -/
def event (level : LogLevel) (name : String) (data : OrderedMap String Datum) : Traced σ Unit :=
  write (.event defaultLogger level name data)

/-- Does work inside a span. The work sees the span's handle and may add notes to it; if the work
fails, the failure is written before the span is closed. -/
def span (h : SpanHandle) (work : Traced (σ × SpanHandle) α) : Traced σ α := fun s =>
  let inner := work (s, h)
  let failures := match inner.outcome with
    | .ok _ => []
    | .error fault => [inner.state.2.failure fault.reason]
  ⟨h.opening ++ inner.log ++ failures ++ h.closing, inner.outcome, inner.state.1⟩

/-- The state of the work inside a span, without the handle. -/
def workState : Lens (σ × SpanHandle) σ := ⟨Prod.fst, fun s pair => (s, pair.2)⟩

/-- Does work inside a span without looking at the span. -/
def within (h : SpanHandle) (work : Traced σ α) : Traced σ α := span h (work.zoom workState)

/-- Adds a note to the span that is open. -/
def annotate (key : String) (value : Datum) : Traced (σ × SpanHandle) Unit :=
  modify fun pair => (pair.1, pair.2.annotate key value)

/-- Marks the span that is open as failed, and goes on. -/
def markFailed (reason : String) : Traced (σ × SpanHandle) Unit := do
  write ((← get).2.failure reason)

end Traced

end LinkerScriptEditor
