import LinkerScriptEditor.Buffer
import LinkerScriptEditor.Proofs.Log.Effect

/-!
# Operations on buffers

What a host can do with a buffer, one operation after the other, with or without success. Each
edit is checked first: a refused edit leaves the buffer as it was, and an accepted one commits one
change. Re-indenting rows to what they are commits nothing.
-/

namespace LinkerScriptEditor.Buffer

open Traced (effect effect_bind effect_ofExcept)

/-- A request of a host. -/
inductive Operation
  | replaceRange (start stop : Position) (text : List Char) (label : String)
  | insertText (text : List Char) (at? : Option Position)
  | deleteRange (start stop : Position)
  | setIndentation (row width : Int)
  | reindentRows (start : Int) (new : List Line) (label : String)
  | setCursor (p : Position)
  | select (s : Option Selection)
  | markSaved
  | undo
  | redo

/-- The buffer after a request, whether it was granted or refused. -/
def perform (b : Buffer) : Operation → Buffer
  | .replaceRange start stop text label => (replaceRange start stop text label b).state
  | .insertText text at? => (insertText text at? b).state
  | .deleteRange start stop => (deleteRange start stop b).state
  | .setIndentation row width => (setIndentation row width b).state
  | .reindentRows start new label => (reindentRows start new label b).state
  | .setCursor p => b.setCursor p
  | .select s => b.select s
  | .markSaved => b.markSaved
  | .undo => b.undo.2
  | .redo => b.redo.2

/-- The buffer after a list of requests. -/
def performAll (b : Buffer) (operations : List Operation) : Buffer := operations.foldl perform b

/-- A request of a host, as a step. -/
def Operation.request : Operation → Traced Buffer Unit
  | .replaceRange start stop text label => discard (Buffer.replaceRange start stop text label)
  | .insertText text at? => discard (Buffer.insertText text at?)
  | .deleteRange start stop => discard (Buffer.deleteRange start stop)
  | .setIndentation row width => discard (Buffer.setIndentation row width)
  | .reindentRows start new label => discard (Buffer.reindentRows start new label)
  | .setCursor p => modify (Buffer.setCursor p)
  | .select s => modify (Buffer.select s)
  | .markSaved => modify Buffer.markSaved
  | .undo => modify fun b => b.undo.2
  | .redo => modify fun b => b.redo.2

theorem Operation.state_request (op : Operation) (b : Buffer) :
    (effect op.request b).2 = b.perform op := by
  cases op <;> first | rfl | exact congrArg Prod.snd (Traced.effect_discard _ b)

theorem effect_replaceRange (start stop : Position) (text : List Char) (label : String)
    (b : Buffer) :
    effect (replaceRange start stop text label) b = match b.places start stop with
      | .ok (first, second) => effect (edit label (splice first second text)) b
      | .error fault => (.error fault, b) := by
  rw [replaceRange, effect_bind]
  simp only [Traced.effect_get, effect_bind, effect_ofExcept]
  cases b.places start stop <;> rfl

theorem effect_insertText (text : List Char) (at? : Option Position) (b : Buffer) :
    effect (insertText text at?) b =
      effect (replaceRange (at?.getD b.cursor) (at?.getD b.cursor) text "insert_text") b := rfl

theorem effect_reindentRows (start : Int) (new : List Line) (label : String) (b : Buffer) :
    effect (reindentRows start new label) b =
      match b.document.checkRow start, b.document.checkRow (start + new.length - 1) with
      | .ok first, .ok _ =>
        if (b.document.lines.take (first + new.length)).drop first = new then
          (.ok (b.delta label), b)
        else effect (edit label (overwrite first new)) b
      | .ok _, .error fault => (.error fault, b)
      | .error fault, _ => (.error fault, b) := by
  rw [reindentRows, effect_bind]
  simp only [Traced.effect_get, effect_bind, effect_ofExcept]
  cases b.document.checkRow start with
  | error fault => rfl
  | ok first =>
      cases b.document.checkRow (start + new.length - 1) with
      | error fault => rfl
      | ok last =>
          dsimp only
          split <;> rfl

theorem effect_setIndentation (row width : Int) (b : Buffer) :
    effect (setIndentation row width) b = match b.document.checkRow row, Margin.write width with
      | .ok r, .ok margin =>
        effect (reindentRows row [margin ++ Line.body (b.document.lineAt r)] "set_indentation") b
      | .ok _, .error fault => (.error fault, b)
      | .error fault, _ => (.error fault, b) := by
  rw [setIndentation, effect_bind]
  simp only [Traced.effect_get, effect_bind, effect_ofExcept]
  cases b.document.checkRow row with
  | error fault => rfl
  | ok r => cases Margin.write width <;> rfl

/-- Nothing but a selection changes what is selected. -/
theorem selection_perform (op : Operation) (other : ∀ s, op ≠ .select s) (b : Buffer) :
    (b.perform op).selection = b.selection := by
  have replace : ∀ start stop text label,
      (effect (replaceRange start stop text label) b).2.selection = b.selection := by
    intro start stop text label
    rw [effect_replaceRange]
    cases b.places start stop <;> rfl
  have reindent : ∀ start new label,
      (effect (reindentRows start new label) b).2.selection = b.selection := by
    intro start new label
    rw [effect_reindentRows]
    split
    · split <;> rfl
    · rfl
    · rfl
  cases op with
  | replaceRange start stop text label => exact replace start stop text label
  | insertText text at? => exact replace _ _ text "insert_text"
  | deleteRange start stop => exact replace start stop [] "delete_range"
  | setIndentation row width =>
      change (effect (setIndentation row width) b).2.selection = b.selection
      rw [effect_setIndentation]
      split
      · exact reindent _ _ _
      · rfl
      · rfl
  | reindentRows start new label => exact reindent start new label
  | setCursor p => rfl
  | select s => exact absurd rfl (other s)
  | markSaved => rfl
  | undo =>
      change b.undo.2.selection = b.selection
      rw [Buffer.undo]
      cases b.history.undo? <;> rfl
  | redo =>
      change b.redo.2.selection = b.selection
      rw [Buffer.redo]
      cases b.history.redo? <;> rfl

end LinkerScriptEditor.Buffer
