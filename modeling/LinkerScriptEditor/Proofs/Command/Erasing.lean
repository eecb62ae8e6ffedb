import LinkerScriptEditor.Proofs.Buffer.Inserting
import LinkerScriptEditor.Proofs.Command.Walking

/-!
# Deleting the character before the cursor

What is deleted is what a step to the left goes over, inside a line as well as at its beginning, so
in the flat text it is the one character before the offset of the cursor. At the beginning of the
text there is no such step, and nothing happens.
-/

namespace LinkerScriptEditor.Command

open Traced Workspace

variable {w : Workspace}

theorem effect_onBuffer_return {α : Type} (x : Traced Buffer α) (result : KeyResult)
    (w : Workspace) :
    effect (do
      let _ ← onBuffer x
      return result) w =
      let ran := effect x w.buffer
      (ran.1.map fun _ => result, { w with buffer := ran.2 }) := by
  rcases run : effect x w.buffer with ⟨_ | _, b⟩
  · rw [effect_bind, effect_onBuffer run]
    rfl
  · rw [effect_bind, effect_onBuffer run]
    rfl

/-- Where no character of the line stands before the cursor, the line is joined to the one above. -/
theorem effect_deleteBackward_of_above {line : Line} (outside : ¬0 < w.buffer.cursor.column)
    (below : 0 < w.buffer.cursor.row)
    (above : w.buffer.document.line (w.buffer.cursor.row - 1) = .ok line) :
    effect deleteBackward w =
      let deleted := effect (Buffer.deleteRange ⟨w.buffer.cursor.row - 1, line.length⟩
        ⟨w.buffer.cursor.row, 0⟩) w.buffer
      (deleted.1.map fun _ => .plain "delete_backward", { w with buffer := deleted.2 }) := by
  rw [deleteBackward, effect_bind_of_ok (effect_get w)]
  dsimp only
  rw [if_neg outside, if_pos below, above]
  exact effect_onBuffer_return _ _ w

/-- What is deleted is what a step to the left goes over. -/
theorem effect_deleteBackward_of_move {q : Position}
    (within : w.buffer.cursor.Within w.buffer.document.lines)
    (moved : move w.buffer.document w.buffer.cursor .left = .ok q) (other : q ≠ w.buffer.cursor) :
    effect deleteBackward w =
      let deleted := effect (Buffer.deleteRange q w.buffer.cursor) w.buffer
      (deleted.1.map fun _ => .plain "delete_backward", { w with buffer := deleted.2 }) := by
  have nonneg := within.column_nonneg
  have bound := within.row_lt
  rw [move] at moved
  by_cases inside : 0 < w.buffer.cursor.column
  · rw [if_pos (Int.ne_of_gt inside)] at moved
    cases moved
    rw [deleteBackward, effect_bind_of_ok (effect_get w)]
    dsimp only
    rw [if_pos inside, effect_onBuffer_return]
  · have start : w.buffer.cursor.column = 0 := by omega
    rw [if_neg (not_not_intro start)] at moved
    by_cases below : 0 < w.buffer.cursor.row
    · have above : w.buffer.document.line (w.buffer.cursor.row - 1) = _ :=
        Document.line_eq_ok (by omega) (by omega)
      have here : w.buffer.cursor = ⟨w.buffer.cursor.row, 0⟩ := by rw [← start]
      rw [if_pos below, above] at moved
      cases moved
      rw [effect_deleteBackward_of_above inside below above, ← here]
    · rw [if_neg below] at moved
      cases moved
      exact absurd rfl other

/-- A character that stands before the cursor on its line is taken out of the line. -/
theorem effect_deleteBackward_of_parted {above below : List Line} {left right : Line} {c : Char}
    (parted : w.buffer.Parted above (left ++ [c]) right below) (free : '\n' ∉ left ++ right) :
    ∃ after, effect deleteBackward w =
        (.ok (.plain "delete_backward"), { w with buffer := after }) ∧
      after.Parted above left right below := by
  have cursor : w.buffer.cursor = ⟨above.length, (left.length : Int) + 1⟩ := by
    rw [parted.cursor, List.length_append]
    rfl
  have inside : (left.length : Int) + 1 ≠ 0 := by omega
  have moved : move w.buffer.document w.buffer.cursor .left =
      .ok (⟨above.length, left.length⟩ : Place).toPosition := by
    rw [cursor, move, if_pos inside, Int.add_sub_cancel]
    rfl
  have other : (⟨above.length, left.length⟩ : Place).toPosition ≠ w.buffer.cursor := by
    rw [cursor, Ne, Place.toPosition, Position.mk.injEq]
    dsimp only
    omega
  have without : '\n' ∉ left ++ [] ++ right := by rwa [List.append_nil]
  obtain ⟨delta, after, run, parts⟩ := parted.effect_replaceRange without "delete_range"
  rw [List.append_nil] at parts
  refine ⟨after, ?_, parts⟩
  rw [effect_deleteBackward_of_move parted.within moved other, Buffer.deleteRange, run]
  rfl

theorem effect_deleteBackward_of_start
    (within : w.buffer.cursor.Within w.buffer.document.lines)
    (start : w.buffer.cursor.offset w.buffer.document.lines = 0) :
    effect deleteBackward w = (.ok (.plain "noop"), w) := by
  have origin : Position.Within ⟨0, 0⟩ w.buffer.document.lines :=
    Position.within_start (Int.le_refl 0) (Int.lt_of_le_of_lt within.row_nonneg within.row_lt)
  have zero : Position.offset w.buffer.document.lines ⟨0, 0⟩ = 0 := offset_zero _ (Nat.zero_le _)
  have cursor := within.eq_of_offset origin (start.trans zero.symm)
  rw [deleteBackward, effect_bind_of_ok (effect_get w)]
  dsimp only
  rw [cursor]
  rfl

/-- The character before the cursor is taken out of the text. The cursor goes back by one, unless a
line feed inside the line behind the cursor breaks the line up. -/
theorem deleteBackward_erases (within : w.buffer.cursor.Within w.buffer.document.lines)
    (more : w.buffer.cursor.offset w.buffer.document.lines ≠ 0) :
    ∃ after, effect deleteBackward w =
        (.ok (.plain "delete_backward"), { w with buffer := after }) ∧
      after.text = w.buffer.text.eraseIdx (w.buffer.cursor.offset w.buffer.document.lines - 1) ∧
      ('\n' ∉ (w.buffer.document.lineAt w.buffer.cursor.row.toNat).drop
          w.buffer.cursor.column.toNat →
        after.cursor.Within after.document.lines ∧
          after.cursor.offset after.document.lines + 1 =
            w.buffer.cursor.offset w.buffer.document.lines) := by
  obtain ⟨q, moved, there, step | ⟨-, start⟩⟩ := move_left within
  · have other : q ≠ w.buffer.cursor := by
      rintro rfl
      omega
    have deleted := effect_deleteBackward_of_move within moved other
    generalize w.buffer.cursor = p at *
    obtain ⟨first, rfl, firstRow, firstColumn⟩ := there.exists_place
    obtain ⟨second, rfl, secondRow, secondColumn⟩ := within.exists_place
    change offset _ second = offset _ first + 1 at step
    have inOrder : ¬second.before first = true := by
      intro before
      have le := offset_le_of_before before secondRow
      omega
    have ordered := Buffer.ordered_sorted firstRow firstColumn secondRow secondColumn
    obtain ⟨delta, after, run, document, cursor⟩ :=
      Buffer.effect_replaceRange_of_within [] firstRow firstColumn secondRow secondColumn
        "delete_range"
    rw [sorted_of_not_before inOrder] at ordered document cursor
    have erased : after.text = w.buffer.text.eraseIdx (offset w.buffer.document.lines first) :=
      calc after.text
        _ = textBefore w.buffer.document.lines first ++ [] ++
              textAfter w.buffer.document.lines second := by
          rw [Buffer.text, document]
          exact Buffer.text_splice [] ordered
        _ = _ := by
          rw [List.append_nil, ← take_offset firstRow, ← drop_offset secondRow, step,
            List.eraseIdx_eq_take_drop_succ]
          rfl
    refine ⟨after, ?_, ?_, fun free => ?_⟩
    · rw [deleted, Buffer.deleteRange, run]
      rfl
    · rw [erased]
      exact congrArg _ (Nat.eq_sub_of_add_eq step.symm)
    · have width := congrArg List.length (Buffer.textBefore_cursor_splice [] free ordered)
      rw [List.append_nil] at width
      rw [document, cursor]
      exact ⟨Buffer.within_splice [] free ordered, (congrArg (· + 1) width).trans step.symm⟩
  · exact absurd start more

end LinkerScriptEditor.Command
