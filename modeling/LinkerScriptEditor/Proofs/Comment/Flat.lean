import LinkerScriptEditor.Proofs.Comment.Sharing
import LinkerScriptEditor.Proofs.Comment.Shade
import LinkerScriptEditor.Proofs.Document.Offset
import LinkerScriptEditor.Proofs.Document.Position

/-!
# Comments of the whole text

A document is scanned line by line, and each line hands one bit on to the next. One scan of the
joined lines finds the same comments: a place is inside a comment of its line just if its offset is
inside a comment of the text.
-/

namespace LinkerScriptEditor

namespace Comment

/-- The shade of the joined lines is made up of the shades of the lines, each begun in the state
that the lines above it leave. -/
theorem shadeThrough_joinLines {lines : List Line} {row column : Nat} (inside : Bool)
    (rowBound : row < lines.length) (columnBound : column ≤ (lines.getD row []).length) :
    (shadeThrough inside (joinLines lines))[offset lines ⟨row, column⟩]? =
      some (insideAt ((lines.take row).foldl endsInside inside) (lines.getD row []) column) := by
  induction lines generalizing row inside with
  | nil => cases rowBound
  | cons line rest ih =>
      cases row with
      | zero =>
          have here : column < (shadeThrough inside line).length := by
            rw [length_shadeThrough]
            exact Nat.lt_succ_of_le columnBound
          rw [offset_zero _ columnBound]
          cases rest with
          | nil => exact shadeThrough_getElem? inside line columnBound
          | cons next others =>
              rw [joinLines_cons line (by simp), shadeThrough_append_newline,
                List.getElem?_append_left here]
              exact shadeThrough_getElem? inside line columnBound
      | succ row =>
          have inner : row < rest.length := by simpa using rowBound
          have ne : rest ≠ [] := List.ne_nil_of_length_pos (by omega)
          have past := length_shadeThrough inside line
          rw [offset_succ, joinLines_cons line ne, shadeThrough_append_newline, ← past,
            List.getElem?_append_right (Nat.le_add_right _ _), Nat.add_sub_cancel_left]
          exact ih _ inner columnBound

/-- A place is inside a comment just if its offset is inside a comment of the joined lines, or is
their end and a comment goes on there. -/
theorem isInside_iff_flat {lines : List Line} {row column : Nat} (rowBound : row < lines.length)
    (columnBound : column ≤ (lines.getD row []).length) :
    isInside lines ⟨row, column⟩ = true ↔
      (∃ span ∈ spans false (joinLines lines), span.covers (offset lines ⟨row, column⟩)) ∨
        (offset lines ⟨row, column⟩ = (joinLines lines).length ∧
          endsInside false (joinLines lines) = true) := by
  have shaded := shadeThrough_joinLines false rowBound columnBound
  have length := length_shade false (joinLines lines)
  have covered := any_covers_spans false (joinLines lines) (offset lines ⟨row, column⟩)
  rw [List.any_eq_true] at covered
  rw [covered, ← Option.some_inj]
  change some (insideAt (startsInside lines row) _ _) = _ ↔ _
  rw [startsInside, ← shaded, shadeThrough, List.getElem?_append]
  split
  · next proper =>
      have ne : offset lines ⟨row, column⟩ ≠ (joinLines lines).length := by omega
      simp [ne]
  · next past =>
      have bound := (List.getElem?_eq_some_iff.mp shaded).1
      rw [length_shadeThrough] at bound
      have last : offset lines ⟨row, column⟩ = (joinLines lines).length := by omega
      simp [last, length]

end Comment

/-- Whether a position of a document is inside a comment can be read off from one scan of its whole
text, also at the ends of lines. -/
theorem isInsideComment_iff_flat (d : Document) (id row column : Nat)
    (rowBound : row < d.lineCount) (columnBound : column ≤ (d.lineAt row).length) :
    ∃ inside, d.isInsideComment ⟨row, column⟩ = .ok inside ∧
      ((Snapshot.isInsideComment ⟨id, d⟩ ⟨row, column⟩).run.run .fresh).1 = .ok inside ∧
      textBefore d.lines ⟨row, column⟩ <+: d.text ∧
      (inside = true ↔
        (∃ span ∈ (Comment.scanLine false d.text).1,
          span.start ≤ offset d.lines ⟨row, column⟩ ∧ offset d.lines ⟨row, column⟩ < span.stop) ∨
        (offset d.lines ⟨row, column⟩ = d.text.length ∧
          (Comment.scanLine false d.text).2 = true)) := by
  let place : Place := ⟨row, column⟩
  have checked : d.checkPosition place.toPosition = .ok place :=
    Document.checkPosition_toPosition rowBound columnBound
  have answer : d.isInsideComment place.toPosition = .ok (Comment.isInside d.lines place) := by
    rw [Document.isInsideComment, checked]
    rfl
  have tracked : ((Snapshot.isInsideComment ⟨id, d⟩ place.toPosition).run.run .fresh).1 =
      .ok (Comment.isInside d.lines place) := by
    rw [Snapshot.isInsideComment, checked]
    exact congrArg Except.ok (Tracker.answers_isInside _ d.lines place .fresh
      (Tracker.coherent_fresh _ _)).1
  refine ⟨_, answer, tracked, textBefore_isPrefix rowBound column, ?_⟩
  have flat := Comment.isInside_iff_flat rowBound columnBound
  simp only [Span.covers, Bool.and_eq_true, decide_eq_true_eq] at flat
  exact flat

/-- The end of the first of two lines, where the comment that begins on it goes on. -/
theorem isInsideComment_flat_end_of_line :
    let d := Document.ofText "x /*\n*/ y".toList
    0 < d.lineCount ∧ 4 ≤ (d.lineAt 0).length ∧ d.isInsideComment ⟨0, 4⟩ = .ok true ∧
      ((∃ span ∈ (Comment.scanLine false d.text).1,
          span.start ≤ offset d.lines ⟨0, 4⟩ ∧ offset d.lines ⟨0, 4⟩ < span.stop) ∨
        (offset d.lines ⟨0, 4⟩ = d.text.length ∧ (Comment.scanLine false d.text).2 = true)) := by
  intro d
  have row : 0 < d.lineCount := by decide
  have column : 4 ≤ (d.lineAt 0).length := by decide
  have dark : d.isInsideComment ⟨0, 4⟩ = .ok true := by rfl
  obtain ⟨inside, answer, -, -, flat⟩ := isInsideComment_iff_flat d 0 0 4 row column
  have same : inside = true := Except.ok.inj (answer.symm.trans dark)
  exact ⟨row, column, dark, flat.mp same⟩

end LinkerScriptEditor
