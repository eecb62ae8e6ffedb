import LinkerScriptEditor.Fault
import LinkerScriptEditor.Text.Line

/-!
# Margins

The margin of a line is the spaces that put it at a column; a negative column needs none. Columns
are unbounded, but a margin can only be written if its width is a machine word and memory holds
it.
-/

namespace LinkerScriptEditor.Margin

/-- The margin for a column. -/
def ofColumn (column : Int) : Line := Line.spaces column.toNat

/-- The widest margin that memory holds. -/
def capacity : Int := 0x100000000

/-- The margin for a column, if it can be written. -/
def write (column : Int) : Except Fault Line :=
  if 0x8000000000000000 ≤ column then .error .marginTooWide
  else if capacity < column then .error .outOfMemory
  else .ok (ofColumn column)

theorem write_eq_ok_iff {column : Int} {margin : Line} :
    write column = .ok margin ↔ column ≤ capacity ∧ margin = ofColumn column := by
  rw [write, capacity]
  split
  · exact iff_of_false nofun fun h => by omega
  · split
    · exact iff_of_false nofun fun h => by omega
    · constructor
      · intro h
        cases h
        exact ⟨by omega, rfl⟩
      · rintro ⟨-, rfl⟩
        rfl

end LinkerScriptEditor.Margin
