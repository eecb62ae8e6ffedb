import LinkerScriptEditor.Proofs.Buffer.Sound
import LinkerScriptEditor.Proofs.Indent.Column

/-!
# Cursors and margins

When a row gets another margin, its text moves, and a cursor on the row follows the text. A row
that has its margin already is not edited. Then a cursor inside the margin stays where it is, and
only then it is not where the text begins.
-/

namespace LinkerScriptEditor

open Traced

/-- Where a cursor belongs when the margin of a row goes from one width to another. From inside the
old margin it goes to the text, from anywhere else on the row as far as the text goes. -/
def Position.follow (row old new : Nat) (p : Position) : Position :=
  if p.row = row then ⟨p.row, if p.column < old then new else p.column + new - old⟩ else p

/-- A margin that keeps its width moves only a cursor inside it. -/
theorem Position.follow_self (row width : Nat) (p : Position) :
    p = p.follow row width width ↔ ¬(p.row = row ∧ p.column < width) := by
  obtain ⟨r, column⟩ := p
  rw [follow]
  split
  · next here =>
      change r = row at here
      simp only [Position.mk.injEq, true_and]
      split <;> omega
  · next elsewhere =>
      change ¬r = row at elsewhere
      simp [elsewhere]

namespace Buffer

/-- The cursor is in the margin of a row that is at the column already. -/
structure Resting (b : Buffer) (row : Nat) (column : Int) : Prop where
  row_eq : b.cursor.row = row
  inside : b.cursor.column < Line.indentation (b.document.lineAt row)
  settled : Line.moveTo column (b.document.lineAt row) = b.document.lineAt row

/-- The row is at the column, every other row is the same, and the cursor has followed its text,
unless it was resting. -/
structure Moved (before : Buffer) (row : Nat) (column : Int) (after : Buffer) : Prop where
  lines : after.document.lines =
    before.document.lines.set row (Line.moveTo column (before.document.lineAt row))
  follows : after.cursor = before.cursor.follow row
    (Line.indentation (before.document.lineAt row)) column.toNat ↔ ¬before.Resting row column
  rests : before.Resting row column → after = before

variable {b : Buffer} {row : Nat} {column : Int}

/-- The end of the line never holds a cursor back that follows its text. -/
theorem followColumn_moveTo (line : Line) (column : Int) {c : Int} (le : c ≤ line.length) :
    followColumn line (Line.moveTo column line) c =
      if c < Line.indentation line then (column.toNat : Int)
      else c + column.toNat - Line.indentation line := by
  have width := Line.indentation_add_length_body line
  rw [followColumn, Line.indentation_moveTo, Line.length_moveTo]
  split <;> omega

theorem moved_of_settled (bound : row < b.document.lines.length)
    (settled : Line.moveTo column (b.document.lineAt row) = b.document.lineAt row) :
    Moved b row column b where
  lines := by
    rw [settled, Document.lineAt, List.getD_eq_getElem?_getD, List.getElem?_eq_getElem bound,
      Option.getD_some, List.set_getElem_self]
  follows := by
    have width := Line.indentation_moveTo column (b.document.lineAt row)
    rw [settled] at width
    rw [← width, Position.follow_self]
    constructor
    · exact fun outside resting => outside ⟨resting.row_eq, resting.inside⟩
    · exact fun awake here => awake ⟨here.1, here.2, settled⟩
  rests := fun _ => rfl

theorem cursor_overwrite (bound : row < b.document.lines.length)
    (cursor : b.cursor.row = row → b.cursor.column ≤ (b.document.lineAt row).length) :
    (overwrite row [Line.moveTo column (b.document.lineAt row)] b).cursor =
      b.cursor.follow row (Line.indentation (b.document.lineAt row)) column.toNat := by
  let after := overwrite row [Line.moveTo column (b.document.lineAt row)] b
  have here : after.document.lineAt row = Line.moveTo column (b.document.lineAt row) := by
    rw [Document.lineAt, lines_overwrite (List.cons_ne_nil _ _) bound, ← Nat.add_zero row]
    exact getD_splice_inside (Nat.le_of_lt bound) Nat.one_pos
  have moved : after.cursor = if (row : Int) ≤ b.cursor.row ∧ b.cursor.row < row + 1 then
      ⟨b.cursor.row, followColumn (b.document.lineAt b.cursor.row.toNat)
        (after.document.lineAt b.cursor.row.toNat) b.cursor.column⟩
    else b.cursor := rfl
  rw [moved, Position.follow]
  split
  · next inside =>
      have same : b.cursor.row = row := by omega
      rw [if_pos same, same, Int.toNat_natCast, here, followColumn_moveTo _ _ (cursor same)]
  · next outside =>
      have other : b.cursor.row ≠ row := by omega
      rw [if_neg other]

theorem moved_overwrite (bound : row < b.document.lines.length)
    (cursor : b.cursor.row = row → b.cursor.column ≤ (b.document.lineAt row).length)
    (unsettled : Line.moveTo column (b.document.lineAt row) ≠ b.document.lineAt row)
    (label : String) :
    Moved b row column
      (commit label b (overwrite row [Line.moveTo column (b.document.lineAt row)] b)) where
  lines := by
    change (overwrite row _ b).document.lines = _
    rw [lines_overwrite (List.cons_ne_nil _ _) bound, List.append_assoc, List.singleton_append,
      List.set_eq_take_append_cons_drop, if_pos bound]
    rfl
  follows := iff_of_true (cursor_overwrite bound cursor) fun resting => unsettled resting.settled
  rests := fun resting => absurd resting.settled unsettled

/-- A row that exists is moved to any column that memory holds a margin for. -/
theorem effect_setIndentation_moved (bound : row < b.document.lines.length)
    (cursor : b.cursor.row = row → b.cursor.column ≤ (b.document.lineAt row).length)
    (fits : column ≤ Margin.capacity) :
    ∃ delta after, effect (setIndentation row column) b = (.ok delta, after) ∧
      Moved b row column after := by
  have written : Margin.write column = .ok (Margin.ofColumn column) :=
    Margin.write_eq_ok_iff.mpr ⟨fits, rfl⟩
  have last : (row : Int) + ([Line.moveTo column (b.document.lineAt row)].length : Nat) - 1 = row :=
    Int.add_sub_cancel _ _
  have old : (b.document.lines.take (row + 1)).drop row = [b.document.lineAt row] := by
    rw [List.drop_take, Nat.add_sub_cancel_left, drop_eq_getD_cons bound]
    rfl
  rw [effect_setIndentation, Document.checkRow_natCast bound, written]
  change ∃ delta after, effect (reindentRows row [Line.moveTo column (b.document.lineAt row)]
    "set_indentation") b = (.ok delta, after) ∧ _
  rw [effect_reindentRows, last, Document.checkRow_natCast bound]
  dsimp only
  split
  · next same =>
      refine ⟨_, b, rfl, moved_of_settled bound ?_⟩
      have settled := old.symm.trans same
      exact (List.singleton_inj.mp settled).symm
  · next changed =>
      refine ⟨_, _, rfl, moved_overwrite bound cursor ?_ "set_indentation"⟩
      intro settled
      apply changed
      rw [settled]
      exact old

theorem effect_setIndentation_of_wide (bound : row < b.document.lines.length)
    (wide : Margin.capacity < column) :
    ∃ fault, fault.IsLimit ∧ effect (setIndentation row column) b = (.error fault, b) := by
  rw [effect_setIndentation, Document.checkRow_natCast bound]
  cases written : Margin.write column with
  | error fault => exact ⟨fault, (Margin.of_write_eq_error written).1, rfl⟩
  | ok margin =>
      have fits := (Margin.write_eq_ok_iff.mp written).1
      omega

end Buffer

end LinkerScriptEditor
