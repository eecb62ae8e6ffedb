import LinkerScriptEditor.Proofs.Comment.Absence

/-!
# Lines without their comments

Every character of a comment gives way to a space, so no two characters come to stand side by side
that did not before. A mark that is left would be one that opens a comment, and those are gone: the
lines hold no comment, and erasing comments once more changes nothing.
-/

namespace LinkerScriptEditor

namespace Comment

/-- The rows of a document without their comments. -/
def erase (lines : List Line) : List Line := (List.range lines.length).map (visible lines)

/-- A character inside a comment is shown as a space and any other as it is. -/
theorem getElem?_blankOut (inside : Bool) (text : Line) (column : Nat) :
    (blankOut inside text)[column]? =
      text[column]?.map fun c => if insideAt inside text column then ' ' else c := by
  by_cases bound : column < text.length
  · simp [blankOut, insideAt, Nat.not_le.mpr bound]
  · simp [blankOut, bound]

theorem head?_eq_of_head?_blankOut {inside : Bool} {line : Line} {c : Char} (other : c ≠ ' ')
    (shown : (blankOut inside line).head? = some c) : line.head? = some c := by
  rw [List.head?_eq_getElem?, getElem?_blankOut, Option.map_eq_some_iff] at shown
  obtain ⟨d, first, shown⟩ := shown
  rw [List.head?_eq_getElem?, first]
  split at shown
  · exact absurd shown.symm other
  · rw [shown]

theorem not_infix_blankOut (inside : Bool) (line : Line) :
    ¬['/', '*'] <:+: blankOut inside line := by
  rw [blankOut_eq_zipWith]
  fun_induction shade inside line with
  | case1 rest ih => simpa [List.infix_cons_iff] using ih
  | case2 c rest other ih => simpa [List.infix_cons_iff] using ih
  | case3 rest ih => simpa [List.infix_cons_iff] using ih
  | case4 c rest other ih =>
      rw [List.zipWith_cons_cons, List.infix_cons_iff]
      rintro (starts | later)
      · -- both characters stand outside of comments, and there they open one
        rw [← blankOut_eq_zipWith, List.cons_prefix_cons] at starts
        obtain ⟨slash, tail, star⟩ := starts
        have shown : (blankOut false rest).head? = some '*' := by simp [← star]
        have next := head?_eq_of_head?_blankOut (by decide) shown
        obtain ⟨others, rfl⟩ := List.head?_eq_some_iff.mp next
        exact other others slash.symm rfl
      · exact ih later
  | case5 inside => simp

variable (lines : List Line) (row : Nat)

theorem length_erase : (erase lines).length = lines.length := by
  simp [erase]

theorem getD_erase : (erase lines).getD row [] = visible lines row := by
  by_cases bound : row < lines.length
  · simp [erase, List.getD_eq_getElem?_getD, bound]
  · simp [erase, List.getD_eq_getElem?_getD, bound, visible, blankOut]

theorem plain_erase : Plain (erase lines) := by
  intro line mem
  obtain ⟨row, -, rfl⟩ := List.mem_map.mp mem
  exact not_infix_blankOut _ _

theorem visible_erase : visible (erase lines) row = visible lines row := by
  rw [visible_of_plain (plain_erase lines), getD_erase]

theorem erase_erase : erase (erase lines) = erase lines := by
  rw [erase, length_erase, funext (visible_erase lines), ← erase]

theorem spans_erase :
    spans (startsInside (erase lines) row) ((erase lines).getD row []) = [] := by
  rw [startsInside_of_plain (plain_erase lines), spans, scanLine_of_plain (plain_erase lines)]

end Comment

namespace Document

/-- The document whose rows are those of the document without their comments. -/
def erased (d : Document) : Document := { d with lines := Comment.erase d.lines }

theorem lineCount_erased (d : Document) : d.erased.lineCount = d.lineCount :=
  Comment.length_erase d.lines

theorem checkRow_erased (d : Document) (row : Int) : d.erased.checkRow row = d.checkRow row := by
  rw [checkRow, checkRow, lastRow, lastRow, lineCount_erased]

theorem erased_erased (d : Document) : d.erased.erased = d.erased := by
  simp [erased, Comment.erase_erase]

end Document

end LinkerScriptEditor
