import LinkerScriptEditor.Proofs.Buffer.Splicing

/-!
# Reading and replacing

The text of a range is the slice of the flat text between the offsets of its two positions. What is
put in the place of a range is read back from where the range began to the cursor, and putting there
what was read before the edit gives back the lines as they were.
-/

namespace LinkerScriptEditor

open Traced

theorem exists_splitOn_append {separator : Char} {front : List Char} (free : separator ∉ front)
    (text : List Char) :
    ∃ piece pieces, splitOn separator (front ++ text) = (front ++ piece) :: pieces := by
  induction front with
  | nil =>
      cases split : splitOn separator text with
      | nil => exact absurd split (splitOn_ne_nil separator text)
      | cons piece pieces => exact ⟨piece, pieces, split⟩
  | cons c rest ih =>
      obtain ⟨ne, inner⟩ := List.ne_and_not_mem_of_not_mem_cons free
      obtain ⟨piece, pieces, split⟩ := ih inner
      refine ⟨piece, pieces, ?_⟩
      rw [List.cons_append, splitOn, if_neg (Ne.symm ne), split]
      rfl

/-- The position that comes first in reading order. -/
def Position.earlier (p q : Position) : Position :=
  if q.row < p.row ∨ q.row = p.row ∧ q.column < p.column then q else p

theorem Place.toPosition_earlier (p q : Place) :
    p.toPosition.earlier q.toPosition = (p.sorted q).1.toPosition := by
  rw [Position.earlier, Place.sorted, Place.before]
  simp only [Place.toPosition, Bool.or_eq_true, Bool.and_eq_true, decide_eq_true_eq, beq_iff_eq,
    Int.ofNat_lt, Int.natCast_inj]
  split <;> rfl

namespace Buffer

variable {b : Buffer} {start stop : Place}

/-- Up to the end of a range there is the text up to its beginning and the text of the range. -/
theorem textBefore_append_textBetween (bound : stop.row < b.document.lines.length)
    (after : ¬stop.before start = true) :
    textBefore b.document.lines start ++ b.textBetween start stop =
      textBefore b.document.lines stop := by
  simp only [Place.before, Bool.or_eq_true, Bool.and_eq_true, decide_eq_true_eq, beq_iff_eq,
    not_or, not_and, Nat.not_lt] at after
  obtain ⟨rows, columns⟩ := after
  rw [textBetween]
  split
  · next same =>
      have front := List.take_append_drop start.column
        ((b.document.lineAt stop.row).take stop.column)
      rw [List.take_take, Nat.min_eq_left (columns same.symm)] at front
      have cut := joinWith_cut '\n' (b.document.lines.take stop.row)
        ((b.document.lineAt stop.row).take start.column)
        (((b.document.lineAt stop.row).take stop.column).drop start.column) []
      rw [front] at cut
      rw [textBefore, same]
      exact cut.symm
  · next other =>
      have above : start.row < stop.row := Nat.lt_of_le_of_ne rows other
      have taken : start.row < (b.document.lines.take stop.row).length := by
        rw [List.length_take]
        omega
      have line : (b.document.lines.take stop.row).getD start.row [] =
          b.document.lineAt start.row := by
        rw [List.getD_eq_getElem?_getD, List.getElem?_take_of_lt above,
          ← List.getD_eq_getElem?_getD]
        rfl
      have rows := List.take_append_drop start.row (b.document.lines.take stop.row)
      rw [List.take_take, Nat.min_eq_left (Nat.le_of_lt above), drop_eq_getD_cons taken, line]
        at rows
      have cut := joinLines_cut (b.document.lines.take start.row) (b.document.lineAt start.row)
        start.column ((b.document.lines.take stop.row).drop (start.row + 1) ++
          [(b.document.lineAt stop.row).take stop.column])
      rw [← List.cons_append, ← List.append_assoc, rows] at cut
      exact cut.symm

/-- The text of a range is the slice between the offsets of its ends. -/
theorem textBetween_eq_slice (bound : stop.row < b.document.lines.length)
    (after : ¬stop.before start = true) :
    b.textBetween start stop =
      (b.text.take (offset b.document.lines stop)).drop (offset b.document.lines start) := by
  have upTo : b.text.take (offset b.document.lines stop) = textBefore b.document.lines stop := by
    rw [Buffer.text, Document.text, ← textBefore_append_textAfter bound, offset, List.take_left]
  rw [upTo, ← textBefore_append_textBetween bound after, offset, List.drop_left]

theorem textRange_toPosition {p q : Place} (pRow : p.row < b.document.lines.length)
    (pColumn : p.column ≤ (b.document.lineAt p.row).length)
    (qRow : q.row < b.document.lines.length)
    (qColumn : q.column ≤ (b.document.lineAt q.row).length) :
    b.textRange p.toPosition q.toPosition =
      .ok (b.textBetween (p.sorted q).1 (p.sorted q).2) := by
  rw [textRange, places_toPosition pRow pColumn qRow qColumn]
  rfl

theorem not_before_sorted (p q : Place) : ¬(p.sorted q).2.before (p.sorted q).1 = true := by
  rw [Place.sorted]
  split
  · next before =>
      simp only [Place.before, Bool.or_eq_true, Bool.and_eq_true, decide_eq_true_eq,
        beq_iff_eq] at before ⊢
      omega
  · next after => exact after

section Splice

variable (text : List Char) (lines : Separated b.document.lines)
  (ordered : Ordered start stop b.document.lines)
include lines ordered

/-- Up to its first place a splice changes nothing. -/
theorem start_splice :
    start.row < (splice start stop text b).document.lines.length ∧
      start.column ≤ ((splice start stop text b).document.lineAt start.row).length ∧
      textBefore (splice start stop text b).document.lines start =
        textBefore b.document.lines start := by
  let above := b.document.lines.take start.row
  let first := (b.document.lineAt start.row).take start.column
  have rows : above.length = start.row :=
    List.length_take_of_le (Nat.le_of_lt (Nat.lt_of_le_of_lt ordered.row_le ordered.row_lt))
  have width : first.length = start.column := List.length_take_of_le ordered.start_column
  have free : '\n' ∉ first := lines.take_free start.row start.column
  obtain ⟨piece, pieces, split⟩ := exists_splitOn_append free
    (text ++ (b.document.lineAt stop.row).drop stop.column)
  have spliced : (splice start stop text b).document.lines =
      above ++ (first ++ piece) :: (pieces ++ b.document.lines.drop (stop.row + 1)) := by
    rw [← List.append_assoc] at split
    rw [lines_splice text ordered, Buffer.pieces, splitLines, split, List.append_assoc,
      List.cons_append]
  have line : (splice start stop text b).document.lineAt start.row = first ++ piece := by
    rw [Document.lineAt, spliced, ← rows, List.getD_eq_getElem?_getD,
      List.getElem?_append_right (Nat.le_refl _), Nat.sub_self]
    rfl
  refine ⟨?_, ?_, ?_⟩
  · rw [spliced, List.length_append, List.length_cons]
    omega
  · rw [line, List.length_append]
    omega
  · have before := textBefore_append above first piece
      (pieces ++ b.document.lines.drop (stop.row + 1))
    rw [rows, width] at before
    rw [spliced]
    exact before

/-- The cursor does not end up in front of the first place. -/
theorem not_before_cursor_splice {place : Place}
    (cursor : (splice start stop text b).cursor = place.toPosition) :
    ¬place.before start = true := by
  let first := (b.document.lineAt start.row).take start.column
  have width : first.length = start.column := List.length_take_of_le ordered.start_column
  have free : '\n' ∉ first := lines.take_free start.row start.column
  obtain ⟨piece, pieces, split⟩ := exists_splitOn_append free text
  have ends := (cursor_splice text (lines.drop_free _ _) ordered).1
  rw [cursor, Place.toPosition, Place.toPosition, splitLines, split] at ends
  simp only [Position.mk.injEq, Int.natCast_inj] at ends
  obtain ⟨row, column⟩ := ends
  simp only [Place.before, Bool.or_eq_true, Bool.and_eq_true, decide_eq_true_eq, beq_iff_eq]
  cases pieces with
  | nil =>
      have longer : place.column = first.length + piece.length := by
        rw [column, ← List.length_append]
        rfl
      omega
  | cons next rest =>
      rw [List.dropLast_cons_cons, List.length_cons] at row
      omega

/-- The place of the cursor after a splice. The new text lies between it and the first place, and
behind it nothing has changed. -/
theorem exists_cursor_splice :
    ∃ place : Place, (splice start stop text b).cursor = place.toPosition ∧
      place.row < (splice start stop text b).document.lines.length ∧
      place.column ≤ ((splice start stop text b).document.lineAt place.row).length ∧
      ¬place.before start = true ∧
      (splice start stop text b).textBetween start place = text ∧
      textAfter (splice start stop text b).document.lines place =
        textAfter b.document.lines stop := by
  have behind := lines.drop_free stop.row stop.column
  have within := within_splice text behind ordered
  obtain ⟨place, cursor, row, column⟩ := within.exists_place
  have upTo := textBefore_cursor_splice text behind ordered
  rw [cursor] at upTo
  change textBefore _ place = _ at upTo
  have after := not_before_cursor_splice text lines ordered cursor
  have between := textBefore_append_textBetween row after
  have whole := textBefore_append_textAfter row
  have spliced : joinLines (splice start stop text b).document.lines = _ :=
    text_splice text ordered
  rw [upTo, (start_splice text lines ordered).2.2] at between
  rw [upTo, spliced] at whole
  exact ⟨place, cursor, row, column, after, List.append_cancel_left between,
    List.append_cancel_left whole⟩

/-- The text that a splice has taken out, put in the place of the text that it has put in, gives
back the lines. -/
theorem lines_splice_back (after : ¬stop.before start = true) {place : Place}
    (cursor : (splice start stop text b).cursor = place.toPosition)
    (below : textAfter (splice start stop text b).document.lines place =
      textAfter b.document.lines stop) :
    (splice start place (b.textBetween start stop) (splice start stop text b)).document.lines =
      b.document.lines := by
  let made := splice start stop text b
  obtain ⟨startRow, startColumn, above⟩ := start_splice text lines ordered
  have within : place.toPosition.Within made.document.lines := by
    rw [← cursor]
    exact within_splice text (lines.drop_free _ _) ordered
  have orderedBack : Ordered start place made.document.lines := by
    have sorted := ordered_sorted startRow startColumn (Int.ofNat_lt.mp within.row_lt)
      (Int.ofNat_le.mp within.column_le)
    rwa [sorted_of_not_before (not_before_cursor_splice text lines ordered cursor)] at sorted
  have separated := separated_splice (b.textBetween start stop)
    (separated_splice text lines ordered) orderedBack
  -- lines without feeds are the lines of their text, so it is enough that the texts agree
  have same : (splice start place (b.textBetween start stop) made).text = b.text :=
    calc (splice start place (b.textBetween start stop) made).text
      _ = textBefore made.document.lines start ++ b.textBetween start stop ++
            textAfter made.document.lines place := text_splice _ orderedBack
      _ = textBefore b.document.lines stop ++ textAfter b.document.lines stop := by
        rw [above, below, textBefore_append_textBetween ordered.row_lt after]
      _ = b.text := textBefore_append_textAfter ordered.row_lt
  rw [← separated.splitLines_joinLines, ← lines.splitLines_joinLines]
  exact congrArg splitLines same

end Splice

/-- The text of a range, in either order, is the slice of the flat text between the offsets of the
two positions. Once the range is replaced, the new text is read back from where the range began to
the cursor, and replacing that by what was read before gives back the lines. -/
theorem replaceRange_textRange {b : Buffer} (free : ∀ line ∈ b.document.lines, '\n' ∉ line)
    {start stop : Position} (first : start.Within b.document.lines)
    (second : stop.Within b.document.lines) (text : List Char) (label again : String) :
    let lines := b.document.lines
    let read := (b.text.take (max (start.offset lines) (stop.offset lines))).drop
      (min (start.offset lines) (stop.offset lines))
    b.textRange start stop = .ok read ∧
      ∃ delta after, effect (replaceRange start stop text label) b = (.ok delta, after) ∧
        after.textRange (start.earlier stop) after.cursor = .ok text ∧
        ∃ delta back,
          effect (replaceRange (start.earlier stop) after.cursor read again) after =
            (.ok delta, back) ∧
          back.document.lines = lines := by
  intro lines read
  obtain ⟨p, rfl, pRow, pColumn⟩ := first.exists_place
  obtain ⟨q, rfl, qRow, qColumn⟩ := second.exists_place
  have separated : Separated lines := ⟨List.ne_nil_of_length_pos (Nat.zero_lt_of_lt pRow), free⟩
  have ordered := ordered_sorted pRow pColumn qRow qColumn
  have inOrder := not_before_sorted p q
  have between : b.textBetween (p.sorted q).1 (p.sorted q).2 = read := by
    obtain ⟨lower, upper⟩ : offset lines (p.sorted q).1 = _ ∧ offset lines (p.sorted q).2 = _ :=
      offset_sorted pRow qRow
    rw [textBetween_eq_slice ordered.row_lt inOrder, lower, upper]
    rfl
  obtain ⟨delta, after, run, document, cursor⟩ :=
    effect_replaceRange_of_within text pRow pColumn qRow qColumn label
  obtain ⟨place, atPlace, row, column, behind, made, below⟩ :=
    exists_cursor_splice text separated ordered
  obtain ⟨startRow, startColumn, -⟩ := start_splice text separated ordered
  have restored := lines_splice_back text separated ordered inOrder atPlace below
  rw [← document] at row column startRow startColumn
  obtain ⟨delta', back, run', document', -⟩ :=
    effect_replaceRange_of_within read startRow startColumn row column again
  rw [← cursor] at atPlace
  rw [Place.toPosition_earlier, textRange_toPosition pRow pColumn qRow qColumn, between]
  refine ⟨rfl, delta, after, run, ?_, delta', back, atPlace ▸ run', ?_⟩
  · rw [atPlace, textRange_toPosition startRow startColumn row column, sorted_of_not_before behind,
      textBetween, document]
    exact congrArg Except.ok made
  · rw [document', sorted_of_not_before behind, splice, document]
    rw [between] at restored
    exact restored

/-- A range that begins in the middle of the last line and ends in the middle of the first. -/
theorem replaceRange_textRange_backwards :
    let b := ofText none none "ab\ncd\nef".toList
    (∀ line ∈ b.document.lines, '\n' ∉ line) ∧ Position.Within ⟨2, 1⟩ b.document.lines ∧
      Position.Within ⟨0, 1⟩ b.document.lines ∧
      b.textRange ⟨2, 1⟩ ⟨0, 1⟩ = .ok "b\ncd\ne".toList ∧
      ∃ delta after, effect (replaceRange ⟨2, 1⟩ ⟨0, 1⟩ "x\ny\n".toList "edit") b =
          (.ok delta, after) ∧
        after.textRange ⟨0, 1⟩ after.cursor = .ok "x\ny\n".toList := by
  intro b
  have free : ∀ line ∈ b.document.lines, '\n' ∉ line := by decide
  have first : Position.Within ⟨2, 1⟩ b.document.lines := by decide
  have second : Position.Within ⟨0, 1⟩ b.document.lines := by decide
  obtain ⟨read, delta, after, run, readBack, -⟩ :=
    replaceRange_textRange free first second "x\ny\n".toList "edit" "edit"
  exact ⟨free, first, second, read, delta, after, run, readBack⟩

end Buffer

end LinkerScriptEditor
