/-!
# Spans of columns

A span holds its first column and the column after its last.
-/

namespace LinkerScriptEditor

/-- The columns from `start` up to `stop`. -/
structure Span where
  start : Nat
  stop : Nat
deriving DecidableEq

namespace Span

def covers (s : Span) (column : Nat) : Bool := s.start ≤ column && column < s.stop

def isEmpty (s : Span) : Bool := s.stop ≤ s.start

/-- Whether two spans share a column. -/
def overlaps (a b : Span) : Bool := a.start < b.stop && b.start < a.stop

theorem overlaps_comm (a b : Span) : a.overlaps b = b.overlaps a := Bool.and_comm _ _

theorem isEmpty_eq_false_iff {s : Span} : s.isEmpty = false ↔ s.start < s.stop := by
  rw [isEmpty, decide_eq_false_iff_not, Nat.not_le]

theorem overlaps_iff {a b : Span} :
    a.overlaps b = true ↔ a.start < b.stop ∧ b.start < a.stop := by
  rw [overlaps, Bool.and_eq_true, decide_eq_true_iff, decide_eq_true_iff]

theorem overlaps_eq_false_iff {a b : Span} :
    a.overlaps b = false ↔ b.stop ≤ a.start ∨ a.stop ≤ b.start := by
  rw [← Bool.not_eq_true, overlaps_iff, Decidable.not_and_iff_not_or_not, Nat.not_lt, Nat.not_lt]

end Span

end LinkerScriptEditor
