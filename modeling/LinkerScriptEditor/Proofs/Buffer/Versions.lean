import LinkerScriptEditor.Proofs.Buffer.Sound
import LinkerScriptEditor.Proofs.Buffer.Timeline

/-!
# Versions

A request advances a buffer by one version if it is an edit that is recorded, or if it goes back or
forth in the history. Any other request leaves the document as it is, whether it is granted or
refused, so the version stands for the lines.
-/

namespace LinkerScriptEditor

namespace Document

theorem checkRow_eq_ok {d : Document} {row : Int} {r : Nat} (checked : d.checkRow row = .ok r) :
    row = r ∧ r < d.lines.length := by
  rw [checkRow] at checked
  split at checked
  · next inside =>
      cases checked
      have below : row < d.lines.length := inside.2
      omega
  · cases checked

end Document

namespace Buffer

/-- Whether a request makes a new version. An edit that is granted does, unless it re-indents rows
to what they are. -/
def advances (b : Buffer) : Operation → Bool
  | .replaceRange start stop text label => (replaceRange start stop text label b).outcome.isOk
  | .insertText text at? => (insertText text at? b).outcome.isOk
  | .deleteRange start stop => (deleteRange start stop b).outcome.isOk
  | .setIndentation row width =>
    (setIndentation row width b).state.document.lines != b.document.lines
  | .reindentRows start new label =>
    (reindentRows start new label b).state.document.lines != b.document.lines
  | .setCursor _ | .select _ | .markSaved => false
  | .undo => b.history.canUndo
  | .redo => b.history.canRedo

/-- How the history comes to a new version: an edit is added to it, or the newest one is undone, or
the next one is redone. -/
def Recorded (b after : Buffer) : Operation → Prop
  | .undo => ∃ e, b.history.undo? = some (e, after.history)
  | .redo => ∃ e, b.history.redo? = some (e, after.history)
  | _ => ∃ label, after.history =
    b.history.push ⟨label, b.text, after.text, b.cursor, after.cursor⟩

/-- What a request that advances leaves. -/
structure Advanced (b : Buffer) (op : Operation) (after : Buffer) : Prop where
  version : after.document.version = b.document.version + 1
  tick : after.changeTick = after.document.version
  dirty : after.document.dirty = true
  recorded : Recorded b after op

/-- What any other request leaves. -/
structure Still (b : Buffer) (op : Operation) (after : Buffer) : Prop where
  lines : after.document.lines = b.document.lines
  version : after.document.version = b.document.version
  tick : after.changeTick = b.changeTick
  history : after.history = b.history
  dirty : op ≠ .markSaved → after.document.dirty = b.document.dirty

variable {b after : Buffer}

/-- A request makes one new version, or none at all. -/
def Counted (b : Buffer) (op : Operation) (after : Buffer) : Prop :=
  if b.advances op then Advanced b op after else Still b op after

theorem counted_of_still {op : Operation} (stays : b.advances op = false)
    (still : Still b op after) : Counted b op after := by
  rw [Counted, stays]
  exact still

theorem counted_self {op : Operation} (stays : b.advances op = false) : Counted b op b :=
  counted_of_still stays ⟨rfl, rfl, rfl, rfl, fun _ => rfl⟩

/-- A buffer after a change that is committed. -/
def Committed (b after : Buffer) : Prop :=
  ∃ label lines cursor,
    after = commit label b { b with document := b.document.replace lines, cursor }

theorem Committed.counted (committed : Committed b after) {op : Operation}
    (advances : b.advances op = true) (edits : Recorded b after op ↔ ∃ label, after.history =
      b.history.push ⟨label, b.text, after.text, b.cursor, after.cursor⟩) :
    Counted b op after := by
  rw [Counted, advances]
  obtain ⟨label, lines, cursor, rfl⟩ := committed
  exact ⟨rfl, rfl, rfl, edits.mpr ⟨label, rfl⟩⟩

theorem effect_replaceRange_cases (start stop : Position) (text : List Char) (label : String)
    (b : Buffer) :
    let ran := Traced.effect (replaceRange start stop text label) b
    ran.1.isOk = true ∧ Committed b ran.2 ∨ ran.1.isOk = false ∧ ran.2 = b := by
  rw [effect_replaceRange]
  cases b.places start stop with
  | error fault => exact .inr ⟨rfl, rfl⟩
  | ok places => exact .inl ⟨rfl, label, _, _, rfl⟩

/-- Rows that are overwritten by others show it. -/
theorem lines_overwrite_ne {first : Nat} {new : List Line}
    (fits : first + new.length ≤ b.document.lines.length)
    (changed : (b.document.lines.take (first + new.length)).drop first ≠ new) :
    (overwrite first new b).document.lines ≠ b.document.lines := by
  have ne : new ≠ [] := by
    rintro rfl
    simp at changed
  have front : (b.document.lines.take first).length = first := List.length_take_of_le (by omega)
  intro same
  rw [lines_overwrite ne fits] at same
  apply changed
  calc (b.document.lines.take (first + new.length)).drop first
    _ = ((b.document.lines.take first ++ new ++ b.document.lines.drop (first + new.length)).take
          (first + new.length)).drop first := by rw [same]
    _ = (b.document.lines.take first ++ new).drop first := by
      rw [List.take_left' (by simp [front])]
    _ = new := List.drop_left' front

theorem effect_reindentRows_cases (start : Int) (new : List Line) (label : String) (b : Buffer) :
    let after := (Traced.effect (reindentRows start new label) b).2
    Committed b after ∧ after.document.lines ≠ b.document.lines ∨ after = b := by
  rw [effect_reindentRows]
  cases first : b.document.checkRow start with
  | error fault => exact .inr rfl
  | ok r =>
      cases last : b.document.checkRow (start + new.length - 1) with
      | error fault => exact .inr rfl
      | ok l =>
          dsimp only
          split
          · exact .inr rfl
          · next changed =>
              obtain ⟨rfl, -⟩ := Document.checkRow_eq_ok first
              have below := Document.checkRow_eq_ok last
              have fits : r + new.length ≤ b.document.lines.length := by omega
              exact .inl ⟨⟨label, _, _, rfl⟩, lines_overwrite_ne fits changed⟩

theorem effect_setIndentation_cases (row width : Int) (b : Buffer) :
    let after := (Traced.effect (setIndentation row width) b).2
    Committed b after ∧ after.document.lines ≠ b.document.lines ∨ after = b := by
  rw [effect_setIndentation]
  cases b.document.checkRow row with
  | error fault => exact .inr rfl
  | ok r =>
      cases Margin.write width with
      | error fault => exact .inr rfl
      | ok margin => exact effect_reindentRows_cases row _ _ b

theorem counted_replaceRange (start stop : Position) (text : List Char) (label : String)
    {op : Operation}
    (advances : b.advances op = (Traced.effect (replaceRange start stop text label) b).1.isOk)
    (edits : ∀ after, Recorded b after op ↔ ∃ label, after.history =
      b.history.push ⟨label, b.text, after.text, b.cursor, after.cursor⟩) :
    Counted b op (Traced.effect (replaceRange start stop text label) b).2 := by
  rcases effect_replaceRange_cases start stop text label b with
    ⟨granted, committed⟩ | ⟨refused, same⟩
  · exact committed.counted (advances.trans granted) (edits _)
  · rw [same]
    exact counted_self (advances.trans refused)

theorem counted_of_reindents {op : Operation}
    (advances : b.advances op = (after.document.lines != b.document.lines))
    (edits : Recorded b after op ↔ ∃ label, after.history =
      b.history.push ⟨label, b.text, after.text, b.cursor, after.cursor⟩)
    (cases : Committed b after ∧ after.document.lines ≠ b.document.lines ∨ after = b) :
    Counted b op after := by
  rcases cases with ⟨committed, changed⟩ | rfl
  · exact committed.counted (advances.trans (bne_iff_ne.mpr changed)) edits
  · exact counted_self (advances.trans (bne_self_eq_false _))

theorem counted_undo (b : Buffer) : Counted b .undo b.undo.2 := by
  rw [Buffer.undo]
  cases done : b.history.done with
  | nil =>
      have stays : b.advances .undo = false := by simp [advances, History.canUndo, done]
      simp only [History.undo?, done]
      exact counted_self stays
  | cons e rest =>
      have advances : b.advances .undo = true := by simp [advances, History.canUndo, done]
      rw [Counted, if_pos advances]
      simp only [History.undo?, done]
      refine ⟨rfl, rfl, rfl, e, ?_⟩
      simp only [restore, History.undo?, done]

theorem counted_redo (b : Buffer) : Counted b .redo b.redo.2 := by
  rw [Buffer.redo]
  cases undone : b.history.undone with
  | nil =>
      have stays : b.advances .redo = false := by simp [advances, History.canRedo, undone]
      simp only [History.redo?, undone]
      exact counted_self stays
  | cons e rest =>
      have advances : b.advances .redo = true := by simp [advances, History.canRedo, undone]
      rw [Counted, if_pos advances]
      simp only [History.redo?, undone]
      refine ⟨rfl, rfl, rfl, e, ?_⟩
      simp only [restore, History.redo?, undone]

/-- Whatever is asked of a buffer, it is counted. -/
theorem counted_perform (b : Buffer) (op : Operation) : Counted b op (b.perform op) := by
  cases op with
  | replaceRange start stop text label =>
      exact counted_replaceRange start stop text label rfl fun _ => Iff.rfl
  | insertText text at? =>
      exact counted_replaceRange _ _ text "insert_text" rfl fun _ => Iff.rfl
  | deleteRange start stop =>
      exact counted_replaceRange start stop [] "delete_range" rfl fun _ => Iff.rfl
  | setIndentation row width =>
      exact counted_of_reindents rfl Iff.rfl (effect_setIndentation_cases row width b)
  | reindentRows start new label =>
      exact counted_of_reindents rfl Iff.rfl (effect_reindentRows_cases start new label b)
  | setCursor p => exact counted_of_still rfl ⟨rfl, rfl, rfl, rfl, fun _ => rfl⟩
  | select s => exact counted_of_still rfl ⟨rfl, rfl, rfl, rfl, fun _ => rfl⟩
  | markSaved => exact counted_of_still rfl ⟨rfl, rfl, rfl, rfl, fun other => absurd rfl other⟩
  | undo => exact counted_undo b
  | redo => exact counted_redo b

/-- How many of some requests make a new version. -/
def advancesAmong : List Operation → Buffer → Nat
  | [], _ => 0
  | op :: rest, b => (b.advances op).toNat + advancesAmong rest (b.perform op)

theorem version_perform (b : Buffer) (op : Operation) :
    (b.perform op).document.version = b.document.version + (b.advances op).toNat := by
  have counted := counted_perform b op
  rw [Counted] at counted
  split at counted
  · next advances => rw [counted.version, advances, Bool.toNat_true]
  · next stays => rw [counted.version, Bool.eq_false_iff.mpr stays, Bool.toNat_false, Nat.add_zero]

/-- The version counts the requests that make a new one. -/
theorem version_performAll (b : Buffer) (operations : List Operation) :
    (b.performAll operations).document.version =
      b.document.version + advancesAmong operations b := by
  induction operations generalizing b with
  | nil => rfl
  | cons op rest ih =>
      calc ((b.perform op).performAll rest).document.version
        _ = (b.perform op).document.version + advancesAmong rest (b.perform op) := ih _
        _ = b.document.version + ((b.advances op).toNat + advancesAmong rest (b.perform op)) := by
          rw [version_perform, Nat.add_assoc]

/-- While the version stays, so do the lines. -/
theorem lines_performAll (b : Buffer) (operations : List Operation)
    (same : (b.performAll operations).document.version = b.document.version) :
    (b.performAll operations).document.lines = b.document.lines := by
  rw [version_performAll] at same
  have none : advancesAmong operations b = 0 := by omega
  clear same
  induction operations generalizing b with
  | nil => rfl
  | cons op rest ih =>
      rw [advancesAmong, Nat.add_eq_zero_iff] at none
      have counted := counted_perform b op
      rw [Counted, if_neg (by simpa using none.1)] at counted
      exact (ih _ none.2).trans counted.lines

theorem tick_perform (tick : b.changeTick = b.document.version) (op : Operation) :
    (b.perform op).changeTick = (b.perform op).document.version := by
  have counted := counted_perform b op
  rw [Counted] at counted
  split at counted
  · exact counted.tick
  · rw [counted.tick, counted.version, tick]

theorem tick_performAll (tick : b.changeTick = b.document.version) (operations : List Operation) :
    (b.performAll operations).changeTick = (b.performAll operations).document.version := by
  induction operations generalizing b with
  | nil => exact tick
  | cons op rest ih => exact ih (tick_perform tick op)

/-- A document that is still not dirty after requests other than saving has the lines it had. -/
theorem clean_performAll {operations : List Operation}
    (unsaved : ∀ op ∈ operations, op ≠ .markSaved)
    (clean : (b.performAll operations).document.dirty = false) :
    b.document.dirty = false ∧ (b.performAll operations).text = b.text := by
  induction operations generalizing b with
  | nil => exact ⟨clean, rfl⟩
  | cons op rest ih =>
      obtain ⟨unmarked, unsaved⟩ := List.forall_mem_cons.mp unsaved
      obtain ⟨middle, text⟩ := ih unsaved clean
      have counted := counted_perform b op
      rw [Counted] at counted
      split at counted
      · rw [counted.dirty] at middle
        cases middle
      · refine ⟨(counted.dirty unmarked).symm.trans middle, text.trans ?_⟩
        exact congrArg joinLines counted.lines

end Buffer

end LinkerScriptEditor
