import Mathlib.Order.Bounds.Basic
import LinkerScriptEditor.Proofs.Command.Safety
import LinkerScriptEditor.Proofs.Document.Offset

/-!
# Walking through the text

To the right and to the left the cursor goes from one place of the flat text to the next one, over
the ends of lines, until the text ends or begins. Places are told apart by their offsets, so a step
and the step back lead to where they began. Up and down the cursor goes to the neighbouring row and
keeps its column as far as the row is long enough.
-/

namespace LinkerScriptEditor

open Traced

theorem Position.Within.eq_of_offset {lines : List Line} {p q : Position} (first : p.Within lines)
    (second : q.Within lines) (same : p.offset lines = q.offset lines) : p = q := by
  obtain ⟨place, rfl, row, column⟩ := first.exists_place
  obtain ⟨other, rfl, otherRow, otherColumn⟩ := second.exists_place
  exact congrArg Place.toPosition (offset_injective row column otherRow otherColumn same)

theorem Position.Within.offset_le {lines : List Line} {p : Position} (within : p.Within lines) :
    p.offset lines ≤ (joinLines lines).length := by
  obtain ⟨place, rfl, row, -⟩ := within.exists_place
  exact offset_le_length row

namespace Command

section Steps

variable {d : Document} {p : Position} (within : p.Within d.lines)
include within

/-- A step to the right is one character on in the text, unless the text is at its end. -/
theorem move_right :
    ∃ q, move d p .right = .ok q ∧ q.Within d.lines ∧
      (q.offset d.lines = p.offset d.lines + 1 ∨ q = p ∧ p.offset d.lines = d.text.length) := by
  obtain ⟨q, moved⟩ : ∃ q, move d p .right = .ok q := ⟨_, move_right_eq within⟩
  have target := Except.ok.inj (moved.symm.trans (move_right_eq within))
  refine ⟨q, moved, ?_⟩
  obtain ⟨⟨row, column⟩, rfl, bound, width⟩ := within.exists_place
  have last : d.lastRow = (d.lines.length : Int) - 1 := rfl
  dsimp only at bound width
  rcases Nat.lt_or_eq_of_le width with inLine | atEnd
  · obtain rfl : q = (⟨row, column + 1⟩ : Place).toPosition :=
      target.trans (if_pos (Int.natCast_inj.not.mpr (Nat.ne_of_lt inLine)))
    exact ⟨Place.within bound inLine, .inl (offset_column_succ inLine)⟩
  · have target := target.trans (if_neg (not_not_intro (Int.natCast_inj.mpr atEnd)))
    subst atEnd
    by_cases more : row + 1 < d.lines.length
    · have below : (row : Int) < d.lastRow := by omega
      obtain rfl : q = (⟨row + 1, 0⟩ : Place).toPosition := target.trans (if_pos below)
      exact ⟨Place.within more (Nat.zero_le _), .inl (offset_row_succ more)⟩
    · have lowest : ¬(row : Int) < d.lastRow := by omega
      have ends : offset d.lines ⟨row, (d.lineAt row).length⟩ = (joinLines d.lines).length :=
        offset_end (by omega)
      obtain rfl := target.trans (if_neg lowest)
      exact ⟨within, .inr ⟨rfl, ends⟩⟩

/-- A step to the left is one character back, unless the text is at its beginning. -/
theorem move_left :
    ∃ q, move d p .left = .ok q ∧ q.Within d.lines ∧
      (p.offset d.lines = q.offset d.lines + 1 ∨ q = p ∧ p.offset d.lines = 0) := by
  obtain ⟨⟨row, column⟩, rfl, bound, width⟩ := within.exists_place
  dsimp only at bound width
  cases column with
  | succ column =>
      have nonzero : (⟨row, column + 1⟩ : Place).toPosition.column ≠ 0 :=
        Int.natCast_ne_zero.mpr (Nat.succ_ne_zero column)
      have moved : move d (⟨row, column + 1⟩ : Place).toPosition .left =
          .ok (⟨row, column⟩ : Place).toPosition := by
        rw [move, if_pos nonzero]
        simp [Place.toPosition]
      exact ⟨_, moved, Place.within bound (Nat.le_of_lt width), .inl (offset_column_succ width)⟩
  | zero =>
      cases row with
      | succ row =>
          have above : row < d.lines.length := Nat.lt_of_succ_lt bound
          have line : d.line row = .ok (d.lineAt row) :=
            Document.line_eq_ok (Int.natCast_nonneg row) (Int.ofNat_lt.mpr above)
          have moved : move d (⟨row + 1, 0⟩ : Place).toPosition .left =
              .ok (⟨row, (d.lineAt row).length⟩ : Place).toPosition := by
            simp [move, Place.toPosition, line]
          exact ⟨_, moved, Place.within above (Nat.le_refl _), .inl (offset_row_succ bound)⟩
      | zero => exact ⟨_, rfl, within, .inr ⟨rfl, offset_zero _ (Nat.zero_le _)⟩⟩

/-- A step back leads to where the step began. -/
theorem move_right_left (more : p.offset d.lines ≠ d.text.length) :
    ∃ q, move d p .right = .ok q ∧ move d q .left = .ok p := by
  obtain ⟨q, right, there, step | ⟨-, ended⟩⟩ := move_right within
  · obtain ⟨back, left, here, steps | ⟨-, start⟩⟩ := move_left there
    · obtain rfl := here.eq_of_offset within (by omega)
      exact ⟨q, right, left⟩
    · omega
  · exact absurd ended more

theorem move_left_right (more : p.offset d.lines ≠ 0) :
    ∃ q, move d p .left = .ok q ∧ move d q .right = .ok p := by
  obtain ⟨q, left, there, step | ⟨-, start⟩⟩ := move_left within
  · obtain ⟨back, right, here, steps | ⟨-, ended⟩⟩ := move_right there
    · obtain rfl := here.eq_of_offset within (by omega)
      exact ⟨q, left, right⟩
    · have bound : p.offset d.lines ≤ d.text.length := within.offset_le
      omega
  · exact absurd start more

theorem moveRow_greatest (by_ : Int) :
    ∃ q, moveRow d p by_ = .ok q ∧ q.row = min (max (p.row + by_) 0) d.lastRow ∧
      IsGreatest {column | Position.Within ⟨q.row, column⟩ d.lines ∧ column ≤ p.column}
        q.column := by
  obtain ⟨q, moved, there⟩ := moveRow_within within by_
  obtain rfl := Except.ok.inj (moved.symm.trans (moveRow_eq within by_).2)
  refine ⟨_, moved, rfl, ⟨there, Int.min_le_left _ _⟩, ?_⟩
  rintro column ⟨valid, le⟩
  exact Int.le_min.mpr ⟨le, valid.column_le⟩

end Steps

end Command

/-- The workspace with the cursor somewhere else and all the rest as it is. -/
def Workspace.moveTo (p : Position) (w : Workspace) : Workspace :=
  { w with buffer := w.buffer.setCursor p }

namespace Command

variable {w : Workspace} {q : Position}

/-- A move that leads back to where the move before it began changes nothing. -/
theorem effect_moveCursor_back {there back : Direction}
    (moved : move w.buffer.document w.buffer.cursor there = .ok q)
    (returned : move w.buffer.document q back = .ok w.buffer.cursor) :
    effect (moveCursor there >>= fun _ => moveCursor back) w = (.ok (.plain "move"), w) := by
  rw [effect_bind_of_ok (effect_moveCursor moved)]
  exact effect_moveCursor (w := w.moveTo q) returned

end Command

end LinkerScriptEditor
