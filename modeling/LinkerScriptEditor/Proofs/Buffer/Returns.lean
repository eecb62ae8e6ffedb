import LinkerScriptEditor.Proofs.Buffer.Operation
import LinkerScriptEditor.Proofs.Document.Lines

/-!
# Carriage returns

A buffer is free of carriage returns if none of its lines holds one and no text of its history
does, so that undoing and redoing bring none back. A gentle operation inserts none and re-indents
rows with what they hold. It keeps a buffer free of carriage returns, and it leaves the selection
as it is.
-/

namespace LinkerScriptEditor

/-- No line holds a carriage return. -/
def Returnless (lines : List Line) : Prop := ∀ line ∈ lines, '\r' ∉ line

structure Edit.Returnless (e : Edit) : Prop where
  before : '\r' ∉ e.textBefore
  after : '\r' ∉ e.textAfter

variable {lines new : List Line}

theorem Returnless.joinLines (free : Returnless lines) : '\r' ∉ joinLines lines := by
  intro mem
  rcases mem_joinWith mem with feed | ⟨line, found, inside⟩
  · exact absurd feed (by decide)
  · exact free line found inside

theorem returnless_splitLines {text : List Char} (free : '\r' ∉ text) :
    Returnless (splitLines text) :=
  fun _ mem inside => free (mem_of_mem_splitOn mem inside)

theorem dropReturns_of_getLast? {line : Line} (other : line.getLast? ≠ some '\r') :
    line.dropReturns = line := by
  rw [← List.head?_reverse] at other
  rw [Line.dropReturns, List.reverse_eq_iff]
  cases reversed : line.reverse with
  | nil => rfl
  | cons last front =>
      rw [reversed] at other
      exact List.dropWhile_cons_of_neg (by simpa using other)

theorem dropReturns_of_not_mem {line : Line} (free : '\r' ∉ line) : line.dropReturns = line :=
  dropReturns_of_getLast? fun last => free (List.mem_of_getLast? last)

theorem Returnless.map_dropReturns (free : Returnless lines) :
    lines.map Line.dropReturns = lines := by
  have kept : ∀ line ∈ lines, Line.dropReturns line = id line :=
    fun line mem => dropReturns_of_not_mem (free line mem)
  rw [List.map_congr_left kept, List.map_id]

/-- Lines without carriage returns are read as they are written. -/
theorem Returnless.lines_ofText (free : Returnless lines) (separated : Separated lines) :
    (Document.ofText (LinkerScriptEditor.joinLines lines)).lines = lines := by
  calc (splitLines (LinkerScriptEditor.joinLines lines)).map Line.dropReturns
    _ = lines.map Line.dropReturns := by rw [separated.splitLines_joinLines]
    _ = lines := free.map_dropReturns

theorem Returnless.getD (free : Returnless lines) (row : Nat) : '\r' ∉ lines.getD row [] := by
  rw [List.getD_eq_getElem?_getD]
  cases found : lines[row]? with
  | none => exact List.not_mem_nil
  | some line => exact free line (List.mem_of_getElem? found)

theorem Returnless.atLeastOne (free : Returnless lines) :
    Returnless (Document.atLeastOne lines) := by
  rw [Document.atLeastOne]
  split
  · intro line mem
    rw [List.mem_singleton.mp mem]
    exact List.not_mem_nil
  · exact free

theorem Returnless.update {d : Document} (free : Returnless d.lines) (start stop : Int)
    (others : Returnless new) : Returnless (d.update start stop new).lines :=
  Document.forall_mem_update List.not_mem_nil free others start stop

namespace Buffer

structure Returnless (b : Buffer) : Prop where
  lines : LinkerScriptEditor.Returnless b.document.lines
  done : ∀ e ∈ b.history.done, e.Returnless
  undone : ∀ e ∈ b.history.undone, e.Returnless

/-- What the editor's own commands ask of a buffer. -/
def Operation.Gentle (b : Buffer) : Operation → Prop
  | .replaceRange _ _ text _ => '\r' ∉ text
  | .insertText text _ => '\r' ∉ text
  | .reindentRows _ new _ =>
    LinkerScriptEditor.Returnless b.document.lines → LinkerScriptEditor.Returnless new
  | .select _ | .markSaved => False
  | _ => True

variable {b after : Buffer}

theorem Returnless.commit (free : b.Returnless) (label : String)
    (history : after.history = b.history)
    (lines : LinkerScriptEditor.Returnless after.document.lines) :
    (commit label b after).Returnless where
  lines := lines
  done := by
    intro e mem
    rcases List.mem_cons.mp (List.mem_of_mem_take mem) with rfl | older
    · exact ⟨free.lines.joinLines, lines.joinLines⟩
    · rw [history] at older
      exact free.done e older
  undone := nofun

theorem Returnless.splice (free : b.Returnless) (start stop : Place) {text : List Char}
    (typed : '\r' ∉ text) :
    LinkerScriptEditor.Returnless (splice start stop text b).document.lines := by
  apply free.lines.update
  apply returnless_splitLines
  simp only [List.mem_append, not_or]
  refine ⟨⟨?_, typed⟩, ?_⟩
  · exact fun mem => free.lines.getD start.row (List.mem_of_mem_take mem)
  · exact fun mem => free.lines.getD stop.row (List.mem_of_mem_drop mem)

theorem Returnless.replaceRange (free : b.Returnless) (start stop : Position) {text : List Char}
    (typed : '\r' ∉ text) (label : String) :
    (Traced.effect (replaceRange start stop text label) b).2.Returnless := by
  rw [effect_replaceRange]
  cases b.places start stop with
  | error fault => exact free
  | ok places =>
      exact free.commit label rfl (free.splice places.1 places.2 typed)

theorem Returnless.reindentRows (free : b.Returnless) (start : Int) {new : List Line}
    (others : LinkerScriptEditor.Returnless new) (label : String) :
    (Traced.effect (reindentRows start new label) b).2.Returnless := by
  rw [effect_reindentRows]
  split
  · split
    · exact free
    · exact free.commit label rfl (free.lines.update _ _ others)
  · exact free
  · exact free

theorem Returnless.setIndentation (free : b.Returnless) (row width : Int) :
    (Traced.effect (setIndentation row width) b).2.Returnless := by
  rw [effect_setIndentation]
  split
  · next r margin checked written =>
      apply free.reindentRows
      intro line mem
      obtain ⟨-, rfl⟩ := Margin.write_eq_ok_iff.mp written
      rw [List.mem_singleton.mp mem]
      intro inside
      rcases List.mem_append.mp inside with left | right
      · exact absurd (List.eq_of_mem_replicate left) (by decide)
      · exact free.lines.getD r ((List.dropWhile_sublist _).mem right)
  · exact free
  · exact free

theorem Returnless.undo (free : b.Returnless) : b.undo.2.Returnless := by
  rw [Buffer.undo, History.undo?]
  cases done : b.history.done with
  | nil => exact free
  | cons e rest =>
      have edits := free.done
      rw [done] at edits
      have newest := edits e List.mem_cons_self
      refine ⟨(returnless_splitLines newest.before).atLeastOne, ?_, ?_⟩
      · exact fun older mem => edits older (List.mem_cons_of_mem e mem)
      · intro other mem
        rcases List.mem_cons.mp mem with rfl | later
        · exact newest
        · exact free.undone other later

theorem Returnless.redo (free : b.Returnless) : b.redo.2.Returnless := by
  rw [Buffer.redo, History.redo?]
  cases undone : b.history.undone with
  | nil => exact free
  | cons e rest =>
      have edits := free.undone
      rw [undone] at edits
      have next := edits e List.mem_cons_self
      refine ⟨(returnless_splitLines next.after).atLeastOne, ?_, ?_⟩
      · intro other mem
        rcases List.mem_cons.mp (List.mem_of_mem_take mem) with rfl | older
        · exact next
        · exact free.done other older
      · exact fun later mem => edits later (List.mem_cons_of_mem e mem)

theorem Returnless.perform (free : b.Returnless) (op : Operation) (gentle : op.Gentle b) :
    (b.perform op).Returnless := by
  cases op with
  | replaceRange start stop text label => exact free.replaceRange start stop gentle label
  | insertText text at? => exact free.replaceRange _ _ gentle "insert_text"
  | deleteRange start stop => exact free.replaceRange start stop List.not_mem_nil "delete_range"
  | setIndentation row width => exact free.setIndentation row width
  | reindentRows start new label => exact free.reindentRows start (gentle free.lines) label
  | setCursor p => exact ⟨free.lines, free.done, free.undone⟩
  | select s => cases gentle
  | markSaved => cases gentle
  | undo => exact free.undo
  | redo => exact free.redo

theorem returnless_ofText (name path : Option String) {text : List Char} (free : '\r' ∉ text) :
    (ofText name path text).Returnless where
  lines := by
    intro line mem
    obtain ⟨piece, found, rfl⟩ := List.mem_map.mp mem
    exact fun inside => free (mem_of_mem_splitOn found (mem_of_mem_dropReturns inside))
  done := nofun
  undone := nofun

end Buffer

end LinkerScriptEditor
