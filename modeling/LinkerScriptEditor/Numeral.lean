import LinkerScriptEditor.Fault
import LinkerScriptEditor.Text.Integer

/-!
# Numerals in messages

Rows, columns and counts are unbounded, but only numbers of at most 4300 digits are written out in
a message.
-/

namespace LinkerScriptEditor.Numeral

/-- A number in decimal digits, if it is not too long. -/
def write (n : Int) : Except Fault String :=
  if Integer.isShort n then .ok (toString n) else .error .tooManyDigits

theorem write_eq_ok_iff {n : Int} {text : String} :
    write n = .ok text ↔ Integer.isShort n ∧ text = toString n := by
  rw [write]
  split
  · next h => simp [h, eq_comm]
  · next h => simp [h]

end LinkerScriptEditor.Numeral
