import LinkerScriptEditor.Proofs.Document.Lines

/-!
# Offsets in the text of a document

The offset of a place is the number of characters before it when the lines are joined. The end of
a line has the offset of the line feed after it, and the end of the last line that of the end of
the text.
-/

namespace LinkerScriptEditor

/-- The lines above a place and its own line up to it. -/
def textBefore (lines : List Line) (place : Place) : List Char :=
  joinLines (lines.take place.row ++ [(lines.getD place.row []).take place.column])

def offset (lines : List Line) (place : Place) : Nat := (textBefore lines place).length

theorem joinLines_cons (line : Line) {lines : List Line} (ne : lines ≠ []) :
    joinLines (line :: lines) = line ++ '\n' :: joinLines lines := by
  cases lines with
  | nil => exact absurd rfl ne
  | cons next rest => rfl

theorem textBefore_succ (line : Line) (lines : List Line) (row column : Nat) :
    textBefore (line :: lines) ⟨row + 1, column⟩ =
      line ++ '\n' :: textBefore lines ⟨row, column⟩ := by
  simp only [textBefore, List.take_succ_cons, List.getD_cons_succ, List.cons_append]
  exact joinLines_cons line (by simp)

theorem offset_zero (lines : List Line) {column : Nat} (bound : column ≤ (lines.getD 0 []).length) :
    offset lines ⟨0, column⟩ = column := by
  simp only [offset, textBefore, List.take_zero, List.nil_append, joinWith]
  rw [List.length_take, Nat.min_eq_left bound]

theorem offset_succ (line : Line) (lines : List Line) (row column : Nat) :
    offset (line :: lines) ⟨row + 1, column⟩ = line.length + 1 + offset lines ⟨row, column⟩ := by
  rw [offset, textBefore_succ, List.length_append, List.length_cons, offset]
  omega

/-- The text before a place is the beginning of the whole text. -/
theorem textBefore_isPrefix {lines : List Line} {row : Nat} (bound : row < lines.length)
    (column : Nat) : textBefore lines ⟨row, column⟩ <+: joinLines lines := by
  induction lines generalizing row with
  | nil => cases bound
  | cons line rest ih =>
      cases row with
      | zero =>
          have first : textBefore (line :: rest) ⟨0, column⟩ = line.take column := rfl
          rw [first]
          apply (List.take_prefix column line).trans
          cases rest with
          | nil => exact List.prefix_rfl
          | cons next others => exact List.prefix_append line _
      | succ row =>
          have inner : row < rest.length := by simpa using bound
          have ne : rest ≠ [] := List.ne_nil_of_length_pos (by omega)
          rw [textBefore_succ, joinLines_cons line ne]
          exact (List.prefix_append_right_inj line).mpr
            ((List.prefix_cons_inj '\n').mpr (ih inner))

/-- The rest of a place's own line and the lines below. -/
def textAfter (lines : List Line) (place : Place) : List Char :=
  joinLines ((lines.getD place.row []).drop place.column :: lines.drop (place.row + 1))

/-- Lines that are joined can be cut at any column of any of them. -/
theorem joinLines_cut (front : List Line) (line : Line) (column : Nat) (behind : List Line) :
    joinLines (front ++ line :: behind) =
      joinLines (front ++ [line.take column]) ++ joinLines (line.drop column :: behind) := by
  have cut := joinWith_cut '\n' front (line.take column) (line.drop column) behind
  rwa [List.take_append_drop] at cut

theorem textBefore_append_textAfter {lines : List Line} {place : Place}
    (bound : place.row < lines.length) :
    textBefore lines place ++ textAfter lines place = joinLines lines := by
  rw [textBefore, textAfter, ← joinLines_cut, ← drop_eq_getD_cons bound, List.take_append_drop]

theorem take_offset {lines : List Line} {place : Place} (bound : place.row < lines.length) :
    (joinLines lines).take (offset lines place) = textBefore lines place := by
  rw [← textBefore_append_textAfter bound, offset, List.take_left]

theorem drop_offset {lines : List Line} {place : Place} (bound : place.row < lines.length) :
    (joinLines lines).drop (offset lines place) = textAfter lines place := by
  rw [← textBefore_append_textAfter bound, offset, List.drop_left]

/-- The character of a place in the joined lines is that of its line. -/
theorem getElem?_joinLines_offset {lines : List Line} {row column : Nat}
    (bound : row < lines.length) (inLine : column < (lines.getD row []).length) :
    (joinLines lines)[offset lines ⟨row, column⟩]? = (lines.getD row [])[column]? := by
  rw [← List.head?_drop, ← List.head?_drop, drop_offset bound, textAfter]
  obtain ⟨c, rest, behind⟩ := List.exists_cons_of_length_pos
    (List.length_drop ▸ Nat.sub_pos_of_lt inLine : 0 < ((lines.getD row []).drop column).length)
  dsimp only
  rw [behind]
  cases lines.drop (row + 1) <;> rfl

/-- Further on in a line there is more text before. -/
theorem offset_le_of_column_le (lines : List Line) (row : Nat) {column later : Nat}
    (le : column ≤ later) : offset lines ⟨row, column⟩ ≤ offset lines ⟨row, later⟩ := by
  have cut := joinLines_cut (lines.take row) ((lines.getD row []).take later) column []
  rw [List.take_take, Nat.min_eq_left le] at cut
  rw [offset, offset, textBefore, textBefore]
  dsimp only
  rw [cut, List.length_append]
  exact Nat.le_add_right _ _

/-- On a later row there is more text before. -/
theorem offset_le_of_row_lt {lines : List Line} {place later : Place}
    (lt : place.row < later.row) (bound : place.row < lines.length) :
    offset lines place ≤ offset lines later := by
  obtain ⟨more, rows⟩ : ∃ more, later.row = place.row + (more + 1) :=
    ⟨later.row - place.row - 1, by omega⟩
  have above : lines.take later.row = lines.take place.row ++
      lines.getD place.row [] :: (lines.drop (place.row + 1)).take more := by
    rw [rows, List.take_add, drop_eq_getD_cons bound, List.take_succ_cons]
  have cut := joinLines_cut (lines.take place.row) (lines.getD place.row []) place.column
    ((lines.drop (place.row + 1)).take more ++ [(lines.getD later.row []).take later.column])
  rw [offset, offset, textBefore, textBefore, above, List.append_assoc, List.cons_append, cut,
    List.length_append]
  exact Nat.le_add_right _ _

theorem offset_le_length {lines : List Line} {place : Place} (bound : place.row < lines.length) :
    offset lines place ≤ (joinLines lines).length :=
  (textBefore_isPrefix bound place.column).length_le

section Steps

variable {lines : List Line} {row : Nat}

/-- Along a line the offset goes up with the column. -/
theorem offset_eq_add {column : Nat} (bound : column ≤ (lines.getD row []).length) :
    offset lines ⟨row, column⟩ = offset lines ⟨row, 0⟩ + column := by
  induction lines generalizing row with
  | nil =>
      obtain rfl : column = 0 := Nat.le_zero.mp bound
      rfl
  | cons line rest ih =>
      cases row with
      | zero => rw [offset_zero _ bound, offset_zero _ (Nat.zero_le _), Nat.zero_add]
      | succ row => rw [offset_succ, offset_succ, ih bound, ← Nat.add_assoc]

theorem offset_column_succ {column : Nat} (bound : column < (lines.getD row []).length) :
    offset lines ⟨row, column + 1⟩ = offset lines ⟨row, column⟩ + 1 := by
  rw [offset_eq_add bound, offset_eq_add (Nat.le_of_lt bound), Nat.add_assoc]

/-- From the end of a line to the beginning of the next one it is one character. -/
theorem offset_row_succ (bound : row + 1 < lines.length) :
    offset lines ⟨row + 1, 0⟩ = offset lines ⟨row, (lines.getD row []).length⟩ + 1 := by
  induction lines generalizing row with
  | nil => cases bound
  | cons line rest ih =>
      cases row with
      | zero =>
          rw [offset_succ, offset_zero rest (Nat.zero_le _), offset_zero _ (Nat.le_refl _)]
          rfl
      | succ row =>
          have inner : row + 1 < rest.length := Nat.lt_of_succ_lt_succ bound
          rw [offset_succ, ih inner, offset_succ]
          rfl

/-- The end of the last line is the end of the text. -/
theorem offset_end (last : row + 1 = lines.length) :
    offset lines ⟨row, (lines.getD row []).length⟩ = (joinLines lines).length := by
  have bound : row < lines.length := by omega
  have whole : textBefore lines ⟨row, (lines.getD row []).length⟩ ++ textAfter lines _ =
      joinLines lines := textBefore_append_textAfter bound
  have behind : textAfter lines ⟨row, (lines.getD row []).length⟩ = [] := by
    simp [textAfter, last, joinWith]
  rw [behind, List.append_nil] at whole
  rw [offset, whole]

theorem offset_lt_of_row_lt {place later : Place} (lt : place.row < later.row)
    (bound : later.row < lines.length)
    (column : place.column ≤ (lines.getD place.row []).length) :
    offset lines place < offset lines later := by
  have below : place.row + 1 < lines.length := by omega
  have next := offset_row_succ below
  have here := offset_le_of_column_le lines place.row column
  have beyond : offset lines ⟨place.row + 1, 0⟩ ≤ offset lines later := by
    rcases Nat.lt_or_eq_of_le (Nat.succ_le_of_lt lt) with above | same
    · exact offset_le_of_row_lt above (by dsimp only; omega)
    · obtain ⟨row, column⟩ := later
      cases same
      exact offset_le_of_column_le lines _ (Nat.zero_le column)
  change offset lines place ≤ _ at here
  omega

/-- No two places of a text have the same offset. -/
theorem offset_injective {p q : Place} (pRow : p.row < lines.length)
    (pColumn : p.column ≤ (lines.getD p.row []).length) (qRow : q.row < lines.length)
    (qColumn : q.column ≤ (lines.getD q.row []).length)
    (same : offset lines p = offset lines q) : p = q := by
  rcases Nat.lt_trichotomy p.row q.row with above | level | below
  · exact absurd same (Nat.ne_of_lt (offset_lt_of_row_lt above qRow pColumn))
  · obtain ⟨row, column⟩ := p
    obtain ⟨_, other⟩ := q
    cases level
    rw [offset_eq_add pColumn, offset_eq_add qColumn, Nat.add_left_cancel_iff] at same
    exact congrArg (Place.mk row) same
  · exact absurd same.symm (Nat.ne_of_lt (offset_lt_of_row_lt below pRow qColumn))

end Steps

/-- Every place of the joined lines is a place of one of the lines. -/
theorem exists_offset_eq {lines : List Line} (ne : lines ≠ []) {i : Nat}
    (bound : i ≤ (joinLines lines).length) :
    ∃ row column, row < lines.length ∧ column ≤ (lines.getD row []).length ∧
      offset lines ⟨row, column⟩ = i := by
  induction lines generalizing i with
  | nil => exact absurd rfl ne
  | cons line rest ih =>
      by_cases here : i ≤ line.length
      · exact ⟨0, i, Nat.succ_pos _, here, offset_zero _ here⟩
      · have more : rest ≠ [] := by
          rintro rfl
          exact here bound
        rw [joinLines_cons line more, List.length_append, List.length_cons] at bound
        obtain ⟨row, column, inside, width, same⟩ := ih more
          (i := i - (line.length + 1)) (by omega)
        refine ⟨row + 1, column, Nat.succ_lt_succ inside, width, ?_⟩
        rw [offset_succ, same]
        omega

/-- The offset of a position that may lie anywhere; only within the lines it tells anything. -/
def Position.offset (lines : List Line) (p : Position) : Nat :=
  LinkerScriptEditor.offset lines ⟨p.row.toNat, p.column.toNat⟩

end LinkerScriptEditor
