import LinkerScriptEditor.Proofs.Buffer.Splicing

/-!
# Editing at the cursor

The cursor parts its line into what stands before it and what stands behind it. As long as the line
holds no line feed, an edit that ends at the cursor changes what stands before it, and the cursor
keeps in front of what stands behind it.
-/

namespace LinkerScriptEditor.Buffer

open Traced

/-- The lines above the cursor, the two parts of its own line and the lines below. -/
structure Parted (above : List Line) (left right : Line) (below : List Line) (b : Buffer) :
    Prop where
  lines : b.document.lines = above ++ (left ++ right) :: below
  cursor : b.cursor = (⟨above.length, left.length⟩ : Place).toPosition

variable {b : Buffer} {above below : List Line} {left right : Line}

theorem exists_parted (within : b.cursor.Within b.document.lines) :
    ∃ above left right below, b.Parted above left right below ∧
      left ++ right = b.document.lineAt b.cursor.row.toNat := by
  obtain ⟨⟨row, column⟩, cursor, bound, width⟩ := within.exists_place
  dsimp only at bound width
  have line : b.document.lineAt b.cursor.row.toNat = b.document.lines.getD row [] := by
    rw [cursor]
    rfl
  refine ⟨b.document.lines.take row, (b.document.lines.getD row []).take column,
    (b.document.lines.getD row []).drop column, b.document.lines.drop (row + 1), ⟨?_, ?_⟩, ?_⟩
  · rw [List.take_append_drop, ← drop_eq_getD_cons bound, List.take_append_drop]
  · rw [List.length_take_of_le (Nat.le_of_lt bound), List.length_take_of_le width, cursor]
  · rw [List.take_append_drop, line]

theorem Parted.row_lt (parted : b.Parted above left right below) :
    above.length < b.document.lines.length := by
  rw [parted.lines, List.length_append, List.length_cons]
  omega

theorem Parted.lineAt (parted : b.Parted above left right below) :
    b.document.lineAt above.length = left ++ right := by
  rw [Document.lineAt, parted.lines]
  simp

theorem Parted.within (parted : b.Parted above left right below) :
    b.cursor.Within b.document.lines := by
  rw [parted.cursor]
  apply Place.within parted.row_lt
  change left.length ≤ (b.document.lineAt above.length).length
  rw [parted.lineAt, List.length_append]
  exact Nat.le_add_right _ _

/-- The parts tell the cursor and the lines. -/
theorem Parted.same {other : Buffer} (parted : b.Parted above left right below)
    (parts : other.Parted above left right below) :
    b.document.lines = other.document.lines ∧ b.cursor = other.cursor :=
  ⟨parted.lines.trans parts.lines.symm, parted.cursor.trans parts.cursor.symm⟩

/-- What stands right before the cursor is replaced. -/
theorem Parted.effect_replaceRange {gone : Line}
    (parted : b.Parted above (left ++ gone) right below) {text : List Char}
    (free : '\n' ∉ left ++ text ++ right) (label : String) :
    ∃ delta after,
      effect (replaceRange (⟨above.length, left.length⟩ : Place).toPosition b.cursor text label) b =
        (.ok delta, after) ∧ after.Parted above (left ++ text) right below := by
  let start : Place := ⟨above.length, left.length⟩
  let stop : Place := ⟨above.length, (left ++ gone).length⟩
  have row := parted.row_lt
  have line := parted.lineAt
  have startColumn : start.column ≤ (b.document.lineAt start.row).length := by
    rw [line, List.append_assoc, List.length_append]
    exact Nat.le_add_right _ _
  have stopColumn : stop.column ≤ (b.document.lineAt stop.row).length := by
    rw [line, List.length_append]
    exact Nat.le_add_right _ _
  have ordered : Ordered start stop b.document.lines :=
    ⟨Nat.le_refl _, row, startColumn, stopColumn⟩
  have sorted : start.sorted stop = (start, stop) := by
    apply sorted_of_not_before
    simp [Place.before, start, stop]
  have front : (b.document.lineAt start.row).take start.column = left := by
    rw [line, List.append_assoc]
    exact List.take_left
  have behind : (b.document.lineAt stop.row).drop stop.column = right := by
    rw [line]
    exact List.drop_left
  have pieces : splitLines (left ++ text) = [left ++ text] :=
    splitOn_of_not_mem fun feed => free (List.mem_append_left right feed)
  have rest : '\n' ∉ (b.document.lineAt stop.row).drop stop.column := by
    rw [behind]
    exact fun feed => free (List.mem_append_right _ feed)
  obtain ⟨cursor, lines⟩ := cursor_splice text rest ordered
  rw [front, pieces] at cursor lines
  rw [behind, parted.lines] at lines
  obtain ⟨delta, after, run, document, ends⟩ :=
    effect_replaceRange_of_within text row startColumn row stopColumn label
  rw [sorted] at document ends
  rw [parted.cursor]
  refine ⟨delta, after, run, ?_, ?_⟩
  · rw [document, lines]
    simp [start, stop]
  · rw [ends, cursor]
    rfl

/-- A text without line feeds is inserted at the cursor. -/
theorem Parted.effect_insertText (parted : b.Parted above left right below) {text : List Char}
    (free : '\n' ∉ left ++ text ++ right) :
    ∃ delta after, effect (insertText text none) b = (.ok delta, after) ∧
      after.Parted above (left ++ text) right below := by
  have nothing : b.Parted above (left ++ []) right below := by rwa [List.append_nil]
  have inserted := nothing.effect_replaceRange free "insert_text"
  rwa [← parted.cursor] at inserted

end LinkerScriptEditor.Buffer
