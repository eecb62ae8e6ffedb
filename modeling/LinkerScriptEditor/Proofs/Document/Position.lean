import LinkerScriptEditor.Document

/-!
# Positions of a document

A position within the lines of a document is what the document's checks let pass: its row exists
and its column is not past the end of the row.
-/

namespace LinkerScriptEditor

/-- The position is that of a character or of the end of a line. -/
structure Position.Within (p : Position) (lines : List Line) : Prop where
  row_nonneg : 0 ≤ p.row
  row_lt : p.row < lines.length
  column_nonneg : 0 ≤ p.column
  column_le : p.column ≤ (lines.getD p.row.toNat []).length

instance (p : Position) (lines : List Line) : Decidable (p.Within lines) :=
  decidable_of_iff
    (0 ≤ p.row ∧ p.row < lines.length ∧ 0 ≤ p.column ∧
      p.column ≤ (lines.getD p.row.toNat []).length)
    ⟨fun ⟨a, b, c, d⟩ => ⟨a, b, c, d⟩, fun ⟨a, b, c, d⟩ => ⟨a, b, c, d⟩⟩

theorem Place.within {lines : List Line} {place : Place} (row : place.row < lines.length)
    (column : place.column ≤ (lines.getD place.row []).length) :
    place.toPosition.Within lines where
  row_nonneg := Int.natCast_nonneg place.row
  row_lt := Int.ofNat_lt.mpr row
  column_nonneg := Int.natCast_nonneg place.column
  column_le := Int.ofNat_le.mpr column

/-- A position within the lines comes from a place. -/
theorem Position.Within.exists_place {lines : List Line} {p : Position} (within : p.Within lines) :
    ∃ place : Place, p = place.toPosition ∧ place.row < lines.length ∧
      place.column ≤ (lines.getD place.row []).length := by
  obtain ⟨row, column⟩ := p
  obtain ⟨row, rfl⟩ := Int.eq_ofNat_of_zero_le within.row_nonneg
  obtain ⟨column, rfl⟩ := Int.eq_ofNat_of_zero_le within.column_nonneg
  exact ⟨⟨row, column⟩, rfl, Int.ofNat_lt.mp within.row_lt, Int.ofNat_le.mp within.column_le⟩

/-- The position is on a row that exists and not past its end. Its column may be negative. -/
structure Position.OnRow (p : Position) (row : Nat) (lines : List Line) : Prop where
  row_eq : p.row = row
  row_lt : row < lines.length
  column_le : p.column ≤ (lines.getD row []).length

theorem Position.Within.onRow {lines : List Line} {p : Position} (within : p.Within lines) :
    p.OnRow p.row.toNat lines where
  row_eq := (Int.toNat_of_nonneg within.row_nonneg).symm
  row_lt := (Int.toNat_lt within.row_nonneg).mpr within.row_lt
  column_le := within.column_le

namespace Position

variable {lines : List Line} {row : Int}

theorem Within.of_le {p : Position} (within : p.Within lines) {column : Int} (nonneg : 0 ≤ column)
    (le : column ≤ p.column) : Within ⟨p.row, column⟩ lines where
  row_nonneg := within.row_nonneg
  row_lt := within.row_lt
  column_nonneg := nonneg
  column_le := Int.le_trans le within.column_le

theorem within_start (nonneg : 0 ≤ row) (bound : row < lines.length) :
    Within ⟨row, 0⟩ lines where
  row_nonneg := nonneg
  row_lt := bound
  column_nonneg := Int.le_refl 0
  column_le := Int.natCast_nonneg _

theorem within_end (nonneg : 0 ≤ row) (bound : row < lines.length) :
    Within ⟨row, (lines.getD row.toNat []).length⟩ lines where
  row_nonneg := nonneg
  row_lt := bound
  column_nonneg := Int.natCast_nonneg _
  column_le := Int.le_refl _

end Position

namespace Document

variable {d : Document}

theorem checkRow_natCast {row : Nat} (bound : row < d.lines.length) : d.checkRow row = .ok row := by
  have inside : (0 : Int) ≤ row ∧ (row : Int) < d.lineCount :=
    ⟨Int.natCast_nonneg row, Int.ofNat_lt.mpr bound⟩
  rw [checkRow, if_pos inside, Int.toNat_natCast]

theorem line_eq_ok {row : Int} (nonneg : 0 ≤ row) (bound : row < d.lines.length) :
    d.line row = .ok (d.lineAt row.toNat) := by
  have inside : 0 ≤ row ∧ row < d.lineCount := ⟨nonneg, bound⟩
  rw [line, if_pos inside]

theorem checkPosition_toPosition {place : Place} (row : place.row < d.lines.length)
    (column : place.column ≤ (d.lineAt place.row).length) :
    d.checkPosition place.toPosition = .ok place := by
  have within : place.toPosition.Within d.lines := Place.within row column
  have rows : 0 ≤ place.toPosition.row ∧ place.toPosition.row < d.lineCount :=
    ⟨within.row_nonneg, within.row_lt⟩
  have columns : 0 ≤ place.toPosition.column ∧
      place.toPosition.column ≤ (d.lineAt place.toPosition.row.toNat).length :=
    ⟨within.column_nonneg, within.column_le⟩
  rw [checkPosition, if_pos rows]
  dsimp only
  rw [if_pos columns]
  rfl

/-- A position that is not within the lines is refused by a fault that names it. -/
theorem checkPosition_eq_error {p : Position} (outside : ¬p.Within d.lines) :
    ∃ fault, d.checkPosition p = .error fault ∧ fault.position? = some p := by
  rw [checkPosition]
  split
  · next rows =>
      dsimp only
      split
      · next columns => exact absurd ⟨rows.1, rows.2, columns.1, columns.2⟩ outside
      · exact ⟨_, rfl, rfl⟩
  · exact ⟨_, rfl, rfl⟩

end Document

end LinkerScriptEditor
