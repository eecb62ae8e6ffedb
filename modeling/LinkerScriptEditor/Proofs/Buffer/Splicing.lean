import LinkerScriptEditor.Proofs.Buffer.Sound
import LinkerScriptEditor.Proofs.Document.Offset

/-!
# Replacing is splicing

Rows and columns are only a way to name places of one flat text. Replacing what lies between two
positions, in either order, cuts the text at their offsets and puts the new text in between, and the
cursor ends right behind it. A position that the document does not have is refused by name.
-/

namespace LinkerScriptEditor

open Traced

section Sorted

variable {lines : List Line} {p q : Place}

theorem offset_le_of_before (before : p.before q = true) (bound : p.row < lines.length) :
    offset lines p ≤ offset lines q := by
  simp only [Place.before, Bool.or_eq_true, Bool.and_eq_true, decide_eq_true_eq,
    beq_iff_eq] at before
  rcases before with above | ⟨same, left⟩
  · exact offset_le_of_row_lt above bound
  · obtain ⟨row, column⟩ := p
    obtain ⟨_, later⟩ := q
    cases same
    exact offset_le_of_column_le lines row (Nat.le_of_lt left)

/-- Of two places that are not in reading order the other one is first, or they are the same. -/
theorem offset_le_of_not_before (after : ¬q.before p = true) (bound : p.row < lines.length) :
    offset lines p ≤ offset lines q := by
  by_cases before : p.before q = true
  · exact offset_le_of_before before bound
  · obtain ⟨pRow, pColumn⟩ := p
    obtain ⟨qRow, qColumn⟩ := q
    simp only [Place.before, Bool.or_eq_true, Bool.and_eq_true, decide_eq_true_eq,
      beq_iff_eq] at before after
    obtain ⟨rfl, rfl⟩ : pRow = qRow ∧ pColumn = qColumn := by omega
    exact Nat.le_refl _

theorem sorted_of_not_before (after : ¬q.before p = true) : p.sorted q = (p, q) := by
  rw [Place.sorted, if_neg after]

/-- Reading order is the order of the offsets. -/
theorem offset_sorted (pRow : p.row < lines.length) (qRow : q.row < lines.length) :
    offset lines (p.sorted q).1 = min (offset lines p) (offset lines q) ∧
      offset lines (p.sorted q).2 = max (offset lines p) (offset lines q) := by
  rw [Place.sorted]
  split
  · next before =>
      have le := offset_le_of_before before qRow
      exact ⟨(Nat.min_eq_right le).symm, (Nat.max_eq_left le).symm⟩
  · next after =>
      have le := offset_le_of_not_before after pRow
      exact ⟨(Nat.min_eq_left le).symm, (Nat.max_eq_right le).symm⟩

end Sorted

namespace Buffer

variable {b : Buffer} {start stop : Place} (text : List Char)

/-- A splice keeps the text before the one place and the text after the other. -/
theorem text_splice (ordered : Ordered start stop b.document.lines) :
    (splice start stop text b).text =
      textBefore b.document.lines start ++ text ++ textAfter b.document.lines stop := by
  let first := (b.document.lineAt start.row).take start.column
  let last := (b.document.lineAt stop.row).drop stop.column
  let above := b.document.lines.take start.row
  let below := b.document.lines.drop (stop.row + 1)
  have cutFirst := joinWith_cut '\n' above first (text ++ last) below
  have cutLast := joinWith_cut '\n' [] text last below
  calc (splice start stop text b).text
      = joinLines (above ++ b.pieces start stop text ++ below) :=
        congrArg joinLines (lines_splice text ordered)
    _ = joinLines (above ++ (first ++ (text ++ last)) :: below) := by
        rw [joinLines, joinWith_join (pieces_ne_nil text), pieces, joinWith_splitOn,
          List.append_assoc]
    _ = textBefore b.document.lines start ++ text ++ textAfter b.document.lines stop := by
        rw [joinLines, cutFirst, ← List.nil_append ((text ++ last) :: below), cutLast,
          ← List.append_assoc]
        rfl

theorem textBefore_append (above : List Line) (left right : Line) (below : List Line) :
    textBefore (above ++ (left ++ right) :: below) ⟨above.length, left.length⟩ =
      joinLines (above ++ [left]) := by
  simp [textBefore]

/-- The cursor of a splice is where the text up to its first place and the new text end. -/
theorem cursor_splice (free : '\n' ∉ (b.document.lineAt stop.row).drop stop.column)
    (ordered : Ordered start stop b.document.lines) :
    let made := splitLines ((b.document.lineAt start.row).take start.column ++ text)
    (splice start stop text b).cursor =
      (⟨start.row + made.dropLast.length, (made.getLastD []).length⟩ : Place).toPosition ∧
      (splice start stop text b).document.lines =
        b.document.lines.take start.row ++ made.dropLast ++
          (made.getLastD [] ++ (b.document.lineAt stop.row).drop stop.column) ::
            b.document.lines.drop (stop.row + 1) := by
  intro made
  have pieces : b.pieces start stop text =
      made.dropLast ++ [made.getLastD [] ++ (b.document.lineAt stop.row).drop stop.column] :=
    splitOn_append_of_not_mem _ free
  constructor
  · have cursor : (splice start stop text b).cursor =
        ⟨((start.row + (b.pieces start stop text).length - 1 : Nat) : Int),
          (((b.pieces start stop text).getLastD []).length : Int) -
            ((b.document.lineAt stop.row).drop stop.column).length⟩ := rfl
    rw [cursor, pieces]
    simp [Place.toPosition]
  · rw [lines_splice text ordered, pieces]
    simp

/-- Up to the cursor a splice leaves the text before its first place and the new text. -/
theorem textBefore_cursor_splice (free : '\n' ∉ (b.document.lineAt stop.row).drop stop.column)
    (ordered : Ordered start stop b.document.lines) :
    textBefore (splice start stop text b).document.lines
        ⟨(splice start stop text b).cursor.row.toNat,
          (splice start stop text b).cursor.column.toNat⟩ =
      textBefore b.document.lines start ++ text := by
  let first := (b.document.lineAt start.row).take start.column
  let last := (b.document.lineAt stop.row).drop stop.column
  let above := b.document.lines.take start.row
  let below := b.document.lines.drop (stop.row + 1)
  let made := splitLines (first ++ text)
  have front : above.length = start.row :=
    List.length_take_of_le (Nat.le_of_lt (Nat.lt_of_le_of_lt ordered.row_le ordered.row_lt))
  have whole : made.dropLast ++ [made.getLastD []] = made := by
    have nonempty : made ≠ [] := splitOn_ne_nil '\n' _
    rw [List.getLastD_eq_getLast?, List.getLast?_eq_some_getLast nonempty, Option.getD_some,
      List.dropLast_concat_getLast nonempty]
  obtain ⟨cursor, split⟩ := cursor_splice text free ordered
  have place : (⟨(splice start stop text b).cursor.row.toNat,
      (splice start stop text b).cursor.column.toNat⟩ : Place) =
        ⟨(above ++ made.dropLast).length, (made.getLastD []).length⟩ := by
    rw [cursor, List.length_append, front]
    rfl
  calc textBefore (splice start stop text b).document.lines _
      = joinLines (above ++ made.dropLast ++ [made.getLastD []]) := by
        rw [place, split, textBefore_append]
    _ = joinLines (above ++ made ++ []) := by
        rw [List.append_assoc, whole, List.append_nil]
    _ = joinLines (above ++ [first ++ text]) := by
        rw [joinLines, joinWith_join (splitOn_ne_nil '\n' _), joinWith_splitOn]
    _ = textBefore b.document.lines start ++ text :=
        joinWith_cut '\n' above first text []

/-- Two positions within the lines are checked, put into reading order and replaced. -/
theorem effect_replaceRange_of_within {p q : Place} (pRow : p.row < b.document.lines.length)
    (pColumn : p.column ≤ (b.document.lineAt p.row).length)
    (qRow : q.row < b.document.lines.length)
    (qColumn : q.column ≤ (b.document.lineAt q.row).length) (label : String) :
    ∃ delta after, effect (replaceRange p.toPosition q.toPosition text label) b =
        (.ok delta, after) ∧
      after.document = (splice (p.sorted q).1 (p.sorted q).2 text b).document ∧
      after.cursor = (splice (p.sorted q).1 (p.sorted q).2 text b).cursor := by
  let after := commit label b (splice (p.sorted q).1 (p.sorted q).2 text b)
  refine ⟨after.delta label, after, ?_, rfl, rfl⟩
  rw [effect_replaceRange, places_toPosition pRow pColumn qRow qColumn]
  rfl

/-- The first position that is not within the lines is refused, and nothing happens. -/
theorem effect_replaceRange_of_outside {start stop : Position}
    (outside : ¬(start.Within b.document.lines ∧ stop.Within b.document.lines))
    (label : String) :
    ∃ fault, effect (replaceRange start stop text label) b = (.error fault, b) ∧
      fault.position? = some (if start.Within b.document.lines then stop else start) := by
  rw [effect_replaceRange, places]
  by_cases first : start.Within b.document.lines
  · obtain ⟨fault, refused, named⟩ :=
      Document.checkPosition_eq_error fun second => outside ⟨first, second⟩
    rw [if_pos first]
    obtain ⟨place, rfl, row, column⟩ := first.exists_place
    rw [Document.checkPosition_toPosition row column, refused]
    exact ⟨fault, rfl, named⟩
  · obtain ⟨fault, refused, named⟩ := Document.checkPosition_eq_error first
    rw [if_neg first, refused]
    exact ⟨fault, rfl, named⟩

end Buffer

end LinkerScriptEditor
