import LinkerScriptEditor.Margin
import LinkerScriptEditor.Numeral

/-!
# Limits of the machine

Two things can be too large to be written: a margin and a number in a message. Each has faults of
its own for that, and no number that is the width of a margin has too many digits.
-/

namespace LinkerScriptEditor

/-- What was to be written is too large. -/
def Fault.IsLimit (fault : Fault) : Prop :=
  fault = .marginTooWide ∨ fault = .outOfMemory ∨ fault = .tooManyDigits

namespace Margin

variable {column : Int} {fault : Fault} {margin : Line}

/-- Only a margin wider than memory is refused. -/
theorem of_write_eq_error (refused : write column = .error fault) :
    fault.IsLimit ∧ capacity < column := by
  rw [write] at refused
  split at refused
  · next wide =>
      cases refused
      refine ⟨.inl rfl, ?_⟩
      rw [capacity]
      omega
  · split at refused
    · next wide =>
        cases refused
        exact ⟨.inr (.inl rfl), wide⟩
    · cases refused

theorem not_mem_of_write (written : write column = .ok margin) : '\n' ∉ margin := by
  obtain ⟨-, rfl⟩ := write_eq_ok_iff.mp written
  intro feed
  have blank := List.eq_of_mem_replicate feed
  exact absurd blank (by decide)

end Margin

namespace Numeral

variable {n : Int} {fault : Fault}

theorem capacity_lt_pow (count : Nat) (digits : 10 ≤ count) : 0x100000001 < Nat.pow 10 count :=
  Nat.lt_of_lt_of_le (by decide) (Nat.pow_le_pow_right (by decide) digits)

theorem isShort_of_le_capacity (above : -Margin.capacity ≤ n) (below : n ≤ Margin.capacity + 1) :
    Integer.isShort n := by
  have many : 10 ≤ Integer.maxDigits := by decide
  have digits : 0x100000001 < Integer.limit := by
    unfold Integer.limit
    exact capacity_lt_pow Integer.maxDigits many
  rw [Margin.capacity] at above below
  rw [Integer.isShort, decide_eq_true_eq]
  omega

/-- Only a number of too many digits is refused. -/
theorem of_write_eq_error (refused : write n = .error fault) :
    fault.IsLimit ∧ (n < -Margin.capacity ∨ Margin.capacity + 1 < n) := by
  rw [write] at refused
  split at refused
  · cases refused
  · next long =>
      cases refused
      refine ⟨.inr (.inr rfl), ?_⟩
      apply Decidable.byContradiction
      intro within
      apply long
      apply isShort_of_le_capacity <;> omega

end Numeral

end LinkerScriptEditor
