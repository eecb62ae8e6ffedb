import LinkerScriptEditor.Command
import LinkerScriptEditor.Proofs.Indent.Pass
import LinkerScriptEditor.Proofs.Workspace.Frame

/-!
# Safety of commands

In a workspace that is ready every command keeps the buffer sound and stays in the mode. Commands
that edit or move are never refused. Commands that indent are refused only if a margin is wider
than memory, which does not happen where there is room.
-/

namespace LinkerScriptEditor.Command

open Traced Workspace

/-- What a command may come to: it is done, or refused for want of room. Either way the buffer is
sound and the rest of the workspace the same. -/
inductive Safe (w : Workspace) (room : Prop) : Except Fault KeyResult × Workspace → Prop
  | done {result : KeyResult} {after : Workspace} (stays : result.switchTo = none)
      (sound : after.buffer.Sound) (frame : w.Frame after) : Safe w room (.ok result, after)
  | refused {fault : Fault} {after : Workspace} (limit : fault.IsLimit) (narrow : ¬room)
      (sound : after.buffer.Sound) (frame : w.Frame after) : Safe w room (.error fault, after)

variable {w middle : Workspace}

theorem Safe.mono {room roomier : Prop} {effect : Except Fault KeyResult × Workspace}
    (safe : Safe w room effect) (enough : roomier → room) : Safe w roomier effect := by
  cases safe with
  | done stays sound frame => exact .done stays sound frame
  | refused limit narrow sound frame =>
      exact .refused limit (fun roomy => narrow (enough roomy)) sound frame

theorem Safe.after {room : Prop} {effect : Except Fault KeyResult × Workspace}
    (safe : Safe middle room effect) (before : w.Frame middle) : Safe w room effect := by
  cases safe with
  | done stays sound frame => exact .done stays sound (before.trans frame)
  | refused limit narrow sound frame => exact .refused limit narrow sound (before.trans frame)

/-- Replacing what lies between two positions of the document is never refused. -/
theorem safe_replaceRange (sound : w.buffer.Sound) {start stop : Position}
    (first : start.Within w.buffer.document.lines) (second : stop.Within w.buffer.document.lines)
    (text : List Char) (label : String) {result : KeyResult} (stays : result.switchTo = none) :
    Safe w True (effect (do
      let _ ← onBuffer (Buffer.replaceRange start stop text label)
      return result) w) := by
  obtain ⟨delta, after, run, afterSound, selection⟩ :=
    sound.effect_replaceRange first second text label
  rw [effect_bind_of_ok (effect_onBuffer run)]
  exact .done stays afterSound (frame_buffer w selection)

theorem safe_deleteBackward (sound : w.buffer.Sound) : Safe w True (effect deleteBackward w) := by
  have cursor := sound.cursor
  have nonneg := cursor.row_nonneg
  have bound := cursor.row_lt
  rw [deleteBackward, effect_bind_of_ok (effect_get w)]
  dsimp only
  split
  · next inside =>
      apply safe_replaceRange sound
      · exact cursor.of_le (by omega) (by omega)
      · exact cursor
      · rfl
  · split
    · next below =>
        have above : 0 ≤ w.buffer.cursor.row - 1 ∧
            w.buffer.cursor.row - 1 < w.buffer.document.lines.length := by omega
        rw [Document.line_eq_ok above.1 above.2]
        apply safe_replaceRange sound
        · exact Position.within_end above.1 above.2
        · exact Position.within_start nonneg bound
        · rfl
    · exact .done rfl sound (Frame.refl w)

theorem safe_travel (sound : w.buffer.Sound) (status : String)
    {step : Buffer → Option Delta × Buffer} (after : (step w.buffer).2.Sound)
    (selection : (step w.buffer).2.selection = w.buffer.selection) :
    Safe w True (effect (travel status step) w) := by
  rw [travel, effect_bind_of_ok (effect_get w)]
  rcases stepped : step w.buffer with ⟨_ | delta, b⟩
  · exact .done rfl sound (Frame.refl w)
  · rw [stepped] at after selection
    exact .done rfl after (frame_buffer w selection)

theorem safe_undo (sound : w.buffer.Sound) : Safe w True (effect undo w) :=
  safe_travel sound "undo" sound.undo (Buffer.selection_perform .undo nofun w.buffer)

theorem safe_redo (sound : w.buffer.Sound) : Safe w True (effect redo w) :=
  safe_travel sound "redo" sound.redo (Buffer.selection_perform .redo nofun w.buffer)

section Move

variable {d : Document} {p : Position}

theorem moveRow_eq (within : p.Within d.lines) (by_ : Int) :
    let row := min (max (p.row + by_) 0) d.lastRow
    (0 ≤ row ∧ row < d.lines.length) ∧
      moveRow d p by_ = .ok ⟨row, min p.column (d.lineAt row.toNat).length⟩ := by
  intro row
  have nonneg := within.row_nonneg
  have bound := within.row_lt
  have last : d.lastRow = (d.lines.length : Int) - 1 := rfl
  have rows : 0 ≤ row ∧ row < d.lines.length := by omega
  refine ⟨rows, ?_⟩
  change (d.line row >>= fun line => pure (⟨row, min p.column line.length⟩ : Position)) = _
  rw [Document.line_eq_ok rows.1 rows.2]
  rfl

theorem moveRow_within (within : p.Within d.lines) (by_ : Int) :
    ∃ q, moveRow d p by_ = .ok q ∧ q.Within d.lines := by
  obtain ⟨rows, moved⟩ := moveRow_eq within by_
  refine ⟨_, moved, rows.1, rows.2, ?_, ?_⟩
  · exact Int.le_min.mpr ⟨within.column_nonneg, Int.natCast_nonneg _⟩
  · exact Int.min_le_right _ _

theorem move_right_eq (within : p.Within d.lines) :
    move d p .right = .ok (if p.column ≠ (d.lineAt p.row.toNat).length then ⟨p.row, p.column + 1⟩
      else if p.row < d.lastRow then ⟨p.row + 1, 0⟩ else p) := by
  rw [move, Document.line_eq_ok within.row_nonneg within.row_lt]
  change (if p.column ≠ (d.lineAt p.row.toNat).length then .ok ⟨p.row, p.column + 1⟩
    else if p.row < d.lastRow then .ok ⟨p.row + 1, 0⟩ else .ok p : Except Fault Position) = _
  split
  · rfl
  · split <;> rfl

/-- From within the document the cursor moves to somewhere within. -/
theorem move_within (within : p.Within d.lines) (direction : Direction) :
    ∃ q, move d p direction = .ok q ∧ q.Within d.lines := by
  have nonneg := within.row_nonneg
  have bound := within.row_lt
  have column := within.column_nonneg
  have width := within.column_le
  have last : d.lastRow = (d.lines.length : Int) - 1 := rfl
  cases direction with
  | up => exact moveRow_within within (-1)
  | down => exact moveRow_within within 1
  | left =>
      rw [move]
      split
      · exact ⟨_, rfl, within.of_le (by omega) (by omega)⟩
      · split
        · rw [Document.line_eq_ok (by omega) (by omega)]
          exact ⟨_, rfl, Position.within_end (by omega) (by omega)⟩
        · exact ⟨p, rfl, within⟩
  | right =>
      refine ⟨_, move_right_eq within, ?_⟩
      rw [Document.lineAt]
      split
      · refine ⟨nonneg, bound, ?_, ?_⟩
        · change 0 ≤ p.column + 1
          omega
        · change p.column + 1 ≤ (d.lines.getD p.row.toNat []).length
          omega
      · split
        · exact Position.within_start (by omega) (by omega)
        · exact within

end Move

theorem effect_moveCursor {direction : Direction} {q : Position}
    (moved : move w.buffer.document w.buffer.cursor direction = .ok q) :
    effect (moveCursor direction) w =
      (.ok (.plain "move"), { w with buffer := w.buffer.setCursor q }) := by
  rw [moveCursor, effect_bind_of_ok (effect_get w), moved]
  rfl

theorem safe_moveCursor (sound : w.buffer.Sound) (direction : Direction) :
    Safe w True (effect (moveCursor direction) w) := by
  obtain ⟨q, moved, within⟩ := move_within sound.cursor direction
  rw [effect_moveCursor moved]
  exact .done rfl (sound.setCursor within) (frame_buffer w rfl)

end LinkerScriptEditor.Command
