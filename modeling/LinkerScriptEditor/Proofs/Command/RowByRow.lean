import LinkerScriptEditor.Proofs.Command.Plan

/-!
# Rows one by one and rows at once

To indent the line of the cursor is to settle its row, and to indent a region is to settle its rows
one after the other. The one makes an edit of each row, the other makes one edit of all of them,
and where a margin is too wide the one keeps the rows above while the other keeps nothing.
-/

namespace LinkerScriptEditor

open Traced

namespace Indent

variable {style : Style} {unit : Int} {lines : List Line} {row : Nat}

theorem settlePlain_of_filled (filled : Line.body (lines.getD row []) ≠ []) :
    settlePlain Margin.write style unit lines row =
      (Margin.write (decideRow style lines unit row).column).map fun margin =>
        lines.set row (margin ++ Line.body (lines.getD row [])) := by
  rw [settlePlain, linePlain, if_neg (by simpa using filled)]
  cases Margin.write (decideRow style lines unit row).column <;> rfl

end Indent

namespace Command

variable {p : Plan} {s : Settings} {b : Buffer}

/-- The rows of a plan come to hold its lines. -/
theorem Plan.Fits.lines_carryOut {first : Nat} (fits : p.Fits b first) :
    (p.carryOut b).2.document.lines = b.document.lines.take first ++ p.lines ++
      b.document.lines.drop (first + p.lines.length) := by
  obtain ⟨delta, after, run, lines, -⟩ :=
    Buffer.effect_reindentRows_of_fits p.label fits.some fits.fits
  rw [Plan.carryOut, fits.start, run]
  exact lines

/-- The row of the cursor is settled. -/
theorem follow_planLine {row : Nat} (cursor : b.cursor.row = row)
    (filled : Line.body (b.document.lineAt row) ≠ []) (bound : row < b.document.lines.length) :
    match Indent.settlePlain Margin.write s.style s.unit b.document.lines row with
    | .ok lines => (planLine.follow s b).2.document.lines = lines
    | .error fault => planLine.follow s b = (.error fault, b) := by
  have plan := planLine_of_bound (s := s) cursor bound
  rw [Plan.move] at plan
  rw [Indent.settlePlain_of_filled filled]
  cases written : Margin.write (Indent.decideRow s.style b.document.lines s.unit row).column with
  | error fault =>
      rw [written] at plan
      exact Planning.follow_of_error plan
  | ok margin =>
      rw [written] at plan
      obtain ⟨p, planned⟩ : ∃ p, planLine s b = .ok p := ⟨_, plan⟩
      obtain rfl : p = _ := Except.ok.inj (planned.symm.trans plan)
      rw [Planning.follow_of_ok planned,
        Plan.Fits.lines_carryOut ⟨rfl, List.cons_ne_nil _ _, bound⟩]
      change b.document.lines.take row ++ [_] ++ b.document.lines.drop (row + 1) =
        b.document.lines.set row _
      rw [List.append_assoc, List.singleton_append, List.set_eq_take_append_cons_drop,
        if_pos bound]
      rfl

theorem rowsBetween_natCast {count first last : Nat} (there : last < count) :
    Indent.rowsBetween count first (some ((last : Int) + 1)) =
      List.range' first (last + 1 - first) := by
  have stop : ((last : Int) + 1).toNat = last + 1 := rfl
  simp only [Indent.rowsBetween, stop, Int.toNat_natCast, Nat.min_eq_left there]

/-- The rows of the region are settled one after the other. -/
theorem follow_planRegion {first last : Nat}
    (rows : regionRows b = ((first : Int), (last : Int))) (le : first ≤ last)
    (there : last < b.document.lines.length) :
    match (List.range' first (last + 1 - first)).foldlM
      (Indent.settlePlain Margin.write s.style s.unit) b.document.lines with
    | .ok lines => (planRegion.follow s b).2.document.lines = lines
    | .error fault => planRegion.follow s b = (.error fault, b) := by
  have plan := planRegion_of_rows (s := s) rows
  have ne := List.ne_nil_of_length_pos (Nat.zero_lt_of_lt there)
  have pass : Indent.reindentBounded s.style s.unit b.document.lines first
      (some ((last : Int) + 1)) =
    (List.range' first (last + 1 - first)).foldlM
        (Indent.settlePlain Margin.write s.style s.unit) b.document.lines := by
    rw [Indent.reindentBounded, Indent.pass_eq_plain Indent.exact_write,
      Document.atLeastOne_of_ne_nil ne, rowsBetween_natCast there]
  cases run : (List.range' first (last + 1 - first)).foldlM
    (Indent.settlePlain Margin.write s.style s.unit) b.document.lines with
  | error fault =>
      rw [pass, run] at plan
      exact Planning.follow_of_error plan
  | ok lines =>
      have kept := Indent.kept_of_reindentBounded (pass.trans run)
      rw [Document.atLeastOne_of_ne_nil ne] at kept
      have count : (Document.slice lines first (last + 1 : Nat)).length = last + 1 - first := by
        rw [length_slice (by rw [kept.length]; omega), kept.length, Nat.min_eq_left there]
      rw [pass, run] at plan
      obtain ⟨p, planned⟩ : ∃ p, planRegion s b = .ok p := ⟨_, plan⟩
      obtain rfl : p = _ := Except.ok.inj (planned.symm.trans plan)
      have some : 0 < (Document.slice lines first (last + 1 : Nat)).length := by omega
      have room : first + (Document.slice lines first (last + 1 : Nat)).length ≤
          b.document.lines.length := by omega
      rw [Planning.follow_of_ok planned,
        Plan.Fits.lines_carryOut ⟨rfl, List.ne_nil_of_length_pos some, room⟩]
      exact splice_slice le (Nat.lt_of_le_of_lt le there) kept

end Command

end LinkerScriptEditor
