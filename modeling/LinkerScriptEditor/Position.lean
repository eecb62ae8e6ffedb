/-!
# Positions

A position names a row and a column, both counted from zero. What a host or a caller hands over
may lie anywhere; a place is a position that a document was asked about and found to have.
-/

namespace LinkerScriptEditor

/-- A row and a column that nobody has checked. -/
structure Position where
  row : Int
  column : Int
deriving DecidableEq

/-- The row and the column of a character, or of the end of a line. -/
structure Place where
  row : Nat
  column : Nat
deriving DecidableEq

namespace Place

def toPosition (place : Place) : Position := ⟨place.row, place.column⟩

/-- Reading order: by row, then by column. -/
def before (a b : Place) : Bool := a.row < b.row || (a.row == b.row && a.column < b.column)

/-- Two places in reading order. -/
def sorted (a b : Place) : Place × Place := if b.before a then (b, a) else (a, b)

end Place

end LinkerScriptEditor
