import LinkerScriptEditor.Proofs.Buffer.Operation
import LinkerScriptEditor.Proofs.Document.Lines
import LinkerScriptEditor.Proofs.Document.Position

/-!
# Sound buffers

The cursor of a sound buffer is within its lines, the lines are those of a text, and every edit of
the history remembers cursors within the texts that it remembers. Undoing and redoing need the last
part: they put a remembered cursor into lines split anew.
-/

namespace LinkerScriptEditor

/-- On either side the edit remembers a cursor within the text. -/
structure Edit.Sound (e : Edit) : Prop where
  before : e.cursorBefore.Within (splitLines e.textBefore)
  after : e.cursorAfter.Within (splitLines e.textAfter)

namespace Buffer

structure Sound (b : Buffer) : Prop where
  lines : Separated b.document.lines
  cursor : b.cursor.Within b.document.lines
  done : ∀ e ∈ b.history.done, e.Sound
  undone : ∀ e ∈ b.history.undone, e.Sound

theorem within_origin {lines : List Line} (separated : Separated lines) :
    Position.Within ⟨0, 0⟩ lines := by
  have place : (⟨0, 0⟩ : Place).toPosition.Within lines :=
    Place.within separated.length_pos (Nat.zero_le _)
  exact place

theorem sound_ofText (name path : Option String) (text : List Char) :
    (ofText name path text).Sound where
  lines := separated_ofText text
  cursor := within_origin (separated_ofText text)
  done := nofun
  undone := nofun

variable {b after : Buffer}

theorem Sound.setCursor (sound : b.Sound) {p : Position} (within : p.Within b.document.lines) :
    (b.setCursor p).Sound :=
  { sound with cursor := within }

/-- A committed edit remembers the sound cursors of both sides. -/
theorem Sound.commit (sound : b.Sound) (label : String) (history : after.history = b.history)
    (lines : Separated after.document.lines) (cursor : after.cursor.Within after.document.lines) :
    (commit label b after).Sound where
  lines := lines
  cursor := cursor
  done := by
    intro e mem
    rcases List.mem_cons.mp (List.mem_of_mem_take mem) with rfl | older
    · constructor
      · change b.cursor.Within (splitLines (joinLines b.document.lines))
        rw [sound.lines.splitLines_joinLines]
        exact sound.cursor
      · change after.cursor.Within (splitLines (joinLines after.document.lines))
        rw [lines.splitLines_joinLines]
        exact cursor
    · rw [history] at older
      exact sound.done e older
  undone := nofun

theorem sound_restore (text : List Char) {cursor : Position} {history : History}
    (within : cursor.Within (splitLines text)) (done : ∀ e ∈ history.done, e.Sound)
    (undone : ∀ e ∈ history.undone, e.Sound) (b : Buffer) :
    (b.restore text cursor history).Sound := by
  have lines : (b.restore text cursor history).document.lines = splitLines text :=
    Document.lines_replace b.document (splitOn_ne_nil '\n' text)
  refine ⟨?_, ?_, done, undone⟩
  · rw [lines]
    exact separated_splitLines text
  · rw [lines]
    exact within

theorem Sound.undo (sound : b.Sound) : b.undo.2.Sound := by
  rw [Buffer.undo, History.undo?]
  cases done : b.history.done with
  | nil => exact sound
  | cons e rest =>
      have edits := sound.done
      rw [done] at edits
      have newest : e.Sound := edits e List.mem_cons_self
      apply sound_restore e.textBefore newest.before
      · exact fun older mem => edits older (List.mem_cons_of_mem e mem)
      · intro other mem
        rcases List.mem_cons.mp mem with rfl | later
        · exact newest
        · exact sound.undone other later

theorem Sound.redo (sound : b.Sound) : b.redo.2.Sound := by
  rw [Buffer.redo, History.redo?]
  cases undone : b.history.undone with
  | nil => exact sound
  | cons e rest =>
      have edits := sound.undone
      rw [undone] at edits
      have next : e.Sound := edits e List.mem_cons_self
      apply sound_restore e.textAfter next.after
      · intro other mem
        rcases List.mem_cons.mp (List.mem_of_mem_take mem) with rfl | older
        · exact next
        · exact sound.done other older
      · exact fun later mem => edits later (List.mem_cons_of_mem e mem)

/-- Two places that the checks let pass, in reading order. -/
structure Ordered (start stop : Place) (lines : List Line) : Prop where
  row_le : start.row ≤ stop.row
  row_lt : stop.row < lines.length
  start_column : start.column ≤ (lines.getD start.row []).length
  stop_column : stop.column ≤ (lines.getD stop.row []).length

theorem places_toPosition {p q : Place} (pRow : p.row < b.document.lines.length)
    (pColumn : p.column ≤ (b.document.lineAt p.row).length)
    (qRow : q.row < b.document.lines.length)
    (qColumn : q.column ≤ (b.document.lineAt q.row).length) :
    b.places p.toPosition q.toPosition = .ok (p.sorted q) := by
  rw [Buffer.places, Document.checkPosition_toPosition pRow pColumn,
    Document.checkPosition_toPosition qRow qColumn]
  rfl

theorem ordered_sorted {lines : List Line} {p q : Place} (pRow : p.row < lines.length)
    (pColumn : p.column ≤ (lines.getD p.row []).length) (qRow : q.row < lines.length)
    (qColumn : q.column ≤ (lines.getD q.row []).length) :
    Ordered (p.sorted q).1 (p.sorted q).2 lines := by
  rw [Place.sorted]
  split
  · next before =>
      refine ⟨?_, pRow, qColumn, pColumn⟩
      simp only [Place.before, Bool.or_eq_true, Bool.and_eq_true, decide_eq_true_eq,
        beq_iff_eq] at before
      dsimp only
      omega
  · next before =>
      refine ⟨?_, qRow, pColumn, qColumn⟩
      simp only [Place.before, Bool.or_eq_true, decide_eq_true_eq, not_or] at before
      exact Nat.not_lt.mp before.1

theorem places_eq_ok {start stop : Position} (first : start.Within b.document.lines)
    (second : stop.Within b.document.lines) :
    ∃ p q, b.places start stop = .ok (p, q) ∧ Ordered p q b.document.lines := by
  obtain ⟨p, rfl, pRow, pColumn⟩ := first.exists_place
  obtain ⟨q, rfl, qRow, qColumn⟩ := second.exists_place
  exact ⟨_, _, places_toPosition pRow pColumn qRow qColumn,
    ordered_sorted pRow pColumn qRow qColumn⟩

section Splice

variable {start stop : Place} (text : List Char)

/-- The lines that a splice puts in the place of the rows from `start` to `stop`. -/
def pieces (start stop : Place) (text : List Char) (b : Buffer) : List Line :=
  splitLines ((b.document.lineAt start.row).take start.column ++ text ++
    (b.document.lineAt stop.row).drop stop.column)

theorem pieces_ne_nil : b.pieces start stop text ≠ [] := splitOn_ne_nil '\n' _

theorem lines_splice (ordered : Ordered start stop b.document.lines) :
    (splice start stop text b).document.lines =
      b.document.lines.take start.row ++ b.pieces start stop text ++
        b.document.lines.drop (stop.row + 1) :=
  Document.lines_update (Nat.le_succ_of_le ordered.row_le) ordered.row_lt (pieces_ne_nil text)

theorem separated_splice (lines : Separated b.document.lines)
    (ordered : Ordered start stop b.document.lines) :
    Separated (splice start stop text b).document.lines := by
  rw [lines_splice text ordered]
  exact lines.splice (pieces_ne_nil text) (separated_splitLines _).free _ _

/-- The last new line ends with what followed the old text. -/
theorem getLastD_pieces (start : Place)
    (free : '\n' ∉ (b.document.lineAt stop.row).drop stop.column) :
    (b.pieces start stop text).getLastD [] =
      (splitLines ((b.document.lineAt start.row).take start.column ++ text)).getLastD [] ++
        (b.document.lineAt stop.row).drop stop.column :=
  getLastD_splitOn_append _ free

theorem onRow_splice (ordered : Ordered start stop b.document.lines) :
    (splice start stop text b).cursor.OnRow
      (start.row + ((b.pieces start stop text).length - 1))
      (splice start stop text b).document.lines := by
  have pos : 0 < (b.pieces start stop text).length :=
    List.length_pos_iff.mpr (pieces_ne_nil text)
  have front : start.row ≤ b.document.lines.length :=
    Nat.le_of_lt (Nat.lt_of_le_of_lt ordered.row_le ordered.row_lt)
  have last : (splice start stop text b).document.lines.getD
      (start.row + ((b.pieces start stop text).length - 1)) [] =
        (b.pieces start stop text).getLastD [] := by
    rw [lines_splice text ordered, getD_splice_inside front (by omega),
      List.getD_eq_getElem?_getD, ← List.getLast?_eq_getElem?, List.getLastD_eq_getLast?]
  have cursor : (splice start stop text b).cursor =
      ⟨((start.row + (b.pieces start stop text).length - 1 : Nat) : Int),
        (((b.pieces start stop text).getLastD []).length : Int) -
          ((b.document.lineAt stop.row).drop stop.column).length⟩ := rfl
  refine ⟨?_, ?_, ?_⟩
  · rw [cursor, Nat.add_sub_assoc pos]
  · rw [lines_splice text ordered]
    simp only [List.length_append, List.length_take, List.length_drop]
    omega
  · rw [cursor, last]
    dsimp only
    omega

theorem within_splice (free : '\n' ∉ (b.document.lineAt stop.row).drop stop.column)
    (ordered : Ordered start stop b.document.lines) :
    (splice start stop text b).cursor.Within (splice start stop text b).document.lines := by
  have onRow := onRow_splice text ordered
  have width := congrArg List.length (getLastD_pieces text start free)
  have column : (splice start stop text b).cursor.column =
      (((b.pieces start stop text).getLastD []).length : Int) -
        ((b.document.lineAt stop.row).drop stop.column).length := rfl
  rw [List.length_append] at width
  refine ⟨?_, ?_, ?_, ?_⟩
  · rw [onRow.row_eq]
    exact Int.natCast_nonneg _
  · rw [onRow.row_eq]
    exact Int.ofNat_lt.mpr onRow.row_lt
  · rw [column]
    omega
  · rw [onRow.row_eq, Int.toNat_natCast]
    exact onRow.column_le

theorem Sound.commit_splice (sound : b.Sound) (label : String)
    (ordered : Ordered start stop b.document.lines) :
    (Buffer.commit label b (splice start stop text b)).Sound := by
  apply sound.commit label
  · rfl
  · exact separated_splice text sound.lines ordered
  · exact within_splice text (sound.lines.drop_free _ _) ordered

end Splice

/-- Positions within the lines are replaced, and the buffer stays sound. -/
theorem Sound.effect_replaceRange (sound : b.Sound) {start stop : Position}
    (first : start.Within b.document.lines) (second : stop.Within b.document.lines)
    (text : List Char) (label : String) :
    ∃ delta after, Traced.effect (replaceRange start stop text label) b = (.ok delta, after) ∧
      after.Sound ∧ after.selection = b.selection := by
  obtain ⟨p, q, places, ordered⟩ := places_eq_ok first second
  let after := Buffer.commit label b (splice p q text b)
  refine ⟨after.delta label, after, ?_, sound.commit_splice text label ordered, rfl⟩
  rw [Buffer.effect_replaceRange, places]
  rfl

section Newline

variable {place : Place}

theorem pieces_newline (lines : Separated b.document.lines) (place : Place) :
    b.pieces place place ['\n'] =
      [(b.document.lineAt place.row).take place.column,
        (b.document.lineAt place.row).drop place.column] := by
  rw [pieces, List.append_assoc, List.singleton_append, splitLines, Document.lineAt,
    splitOn_append_cons (lines.take_free place.row place.column),
    splitOn_of_not_mem (lines.drop_free place.row place.column)]

theorem lines_newline (lines : Separated b.document.lines)
    (row : place.row < b.document.lines.length)
    (column : place.column ≤ (b.document.lineAt place.row).length) :
    (splice place place ['\n'] b).document.lines =
      b.document.lines.take place.row ++
        [(b.document.lineAt place.row).take place.column,
          (b.document.lineAt place.row).drop place.column] ++
        b.document.lines.drop (place.row + 1) := by
  rw [lines_splice ['\n'] ⟨Nat.le_refl _, row, column, column⟩, pieces_newline lines]

end Newline

/-- A line break at the cursor puts the cursor on the next row, and the rows above it get no more
indentation than they had. -/
theorem Sound.effect_newline (sound : b.Sound) :
    ∃ delta after, Traced.effect (insertText ['\n'] none) b = (.ok delta, after) ∧
      after.Sound ∧ after.selection = b.selection ∧ after.cursor.row = b.cursor.row + 1 ∧
      ∀ anchor, anchor ≤ b.cursor.row.toNat →
        Line.indentation (after.document.lineAt anchor) ≤
          Line.indentation (b.document.lineAt anchor) := by
  obtain ⟨place, cursor, row, column⟩ := sound.cursor.exists_place
  have ordered : Ordered place place b.document.lines := ⟨Nat.le_refl _, row, column, column⟩
  have places : b.places b.cursor b.cursor = .ok (place, place) := by
    rw [cursor, places_toPosition row column row column, Place.sorted, ite_self]
  have lines := lines_newline sound.lines row column
  let after := Buffer.commit "insert_text" b (splice place place ['\n'] b)
  refine ⟨after.delta "insert_text", after, ?_, sound.commit_splice ['\n'] _ ordered, rfl, ?_, ?_⟩
  · rw [effect_insertText, Buffer.effect_replaceRange]
    simp only [Option.getD_none, places]
    rfl
  · have count : (b.pieces place place ['\n']).length = 2 := by
      rw [pieces_newline sound.lines]
      rfl
    have down : after.cursor.row =
        ((place.row + (b.pieces place place ['\n']).length - 1 : Nat) : Int) := rfl
    rw [down, count, cursor]
    rfl
  · intro anchor le
    change Line.indentation ((splice place place ['\n'] b).document.lines.getD anchor []) ≤ _
    rw [cursor] at le
    rw [lines]
    -- rows in front keep their lines, and the row of the cursor keeps the front of its line
    rcases Nat.lt_or_eq_of_le le with above | same
    · rw [getD_splice_front (Nat.le_of_lt row) above]
      exact Nat.le_refl _
    · obtain rfl : anchor = place.row + 0 := same
      rw [getD_splice_inside (Nat.le_of_lt row) Nat.two_pos]
      exact Line.indentation_take_le _ _

theorem followColumn_nonneg (before after : Line) (column : Int) :
    0 ≤ followColumn before after column := by
  rw [followColumn]
  split <;> omega

theorem followColumn_le (before after : Line) (column : Int) :
    followColumn before after column ≤ after.length :=
  Int.min_le_right _ _

section Overwrite

variable {first : Nat} {new : List Line}

theorem lines_overwrite (ne : new ≠ []) (fits : first + new.length ≤ b.document.lines.length) :
    (overwrite first new b).document.lines =
      b.document.lines.take first ++ new ++ b.document.lines.drop (first + new.length) :=
  Document.lines_update (Nat.le_add_right _ _) fits ne

theorem within_overwrite (sound : b.Sound) (ne : new ≠ [])
    (fits : first + new.length ≤ b.document.lines.length) :
    (overwrite first new b).cursor.Within (overwrite first new b).document.lines := by
  have lines := lines_overwrite ne fits
  have length : (overwrite first new b).document.lines.length = b.document.lines.length := by
    rw [lines, length_splice fits]
  have cursor : (overwrite first new b).cursor =
      if first ≤ b.cursor.row ∧ b.cursor.row < first + new.length then
        ⟨b.cursor.row, followColumn (b.document.lineAt b.cursor.row.toNat)
          ((overwrite first new b).document.lineAt b.cursor.row.toNat) b.cursor.column⟩
      else b.cursor := rfl
  rw [cursor]
  split
  · refine ⟨sound.cursor.row_nonneg, ?_, followColumn_nonneg _ _ _, followColumn_le _ _ _⟩
    rw [length]
    exact sound.cursor.row_lt
  · next outside =>
      have nonneg := sound.cursor.row_nonneg
      have row : (overwrite first new b).document.lines.getD b.cursor.row.toNat [] =
          b.document.lines.getD b.cursor.row.toNat [] := by
        rw [lines]
        exact getD_splice_outside fits (by omega)
      refine ⟨nonneg, ?_, sound.cursor.column_nonneg, ?_⟩
      · rw [length]
        exact sound.cursor.row_lt
      · rw [row]
        exact sound.cursor.column_le

theorem Sound.commit_overwrite (sound : b.Sound) (label : String) (ne : new ≠ [])
    (free : ∀ line ∈ new, '\n' ∉ line) (fits : first + new.length ≤ b.document.lines.length) :
    (Buffer.commit label b (overwrite first new b)).Sound := by
  apply sound.commit label
  · rfl
  · rw [lines_overwrite ne fits]
    exact sound.lines.splice ne free _ _
  · exact within_overwrite sound ne fits

/-- Rows that exist are overwritten without a fault, unless they are what they should be. -/
theorem effect_reindentRows_of_fits (label : String) (ne : new ≠ [])
    (fits : first + new.length ≤ b.document.lines.length) :
    ∃ delta after, Traced.effect (reindentRows first new label) b = (.ok delta, after) ∧
      after.document.lines =
        b.document.lines.take first ++ new ++ b.document.lines.drop (first + new.length) ∧
      (after = b ∨ after = Buffer.commit label b (overwrite first new b)) := by
  have pos : 0 < new.length := List.length_pos_iff.mpr ne
  have last : (first : Int) + new.length - 1 = ((first + (new.length - 1) : Nat) : Int) := by omega
  rw [Buffer.effect_reindentRows, last, Document.checkRow_natCast (by omega),
    Document.checkRow_natCast (by omega)]
  dsimp only
  split
  · next same =>
      refine ⟨_, b, rfl, ?_, .inl rfl⟩
      have upTo : b.document.lines.take (first + new.length) =
          b.document.lines.take first ++ new := by
        rw [← List.take_append_drop first (b.document.lines.take (first + new.length)), same,
          List.take_take, Nat.min_eq_left (Nat.le_add_right _ _)]
      rw [← upTo, List.take_append_drop]
  · exact ⟨_, _, rfl, lines_overwrite ne fits, .inr rfl⟩

/-- With lines of a text in the place of rows the buffer stays sound. -/
theorem Sound.effect_reindentRows (sound : b.Sound) (label : String) (ne : new ≠ [])
    (free : ∀ line ∈ new, '\n' ∉ line) (fits : first + new.length ≤ b.document.lines.length) :
    ∃ delta after, Traced.effect (reindentRows first new label) b = (.ok delta, after) ∧
      after.Sound ∧ after.selection = b.selection := by
  obtain ⟨delta, after, run, -, rfl | rfl⟩ := effect_reindentRows_of_fits label ne fits
  · exact ⟨delta, after, run, sound, rfl⟩
  · exact ⟨delta, _, run, sound.commit_overwrite label ne free fits, rfl⟩

end Overwrite

/-- A row gets its margin, or the margin cannot be written and nothing happens. -/
theorem Sound.effect_setIndentation (sound : b.Sound) {row : Nat}
    (bound : row < b.document.lines.length) (width : Int) :
    (∃ fault, Margin.write width = .error fault ∧
        Traced.effect (setIndentation row width) b = (.error fault, b)) ∨
      ∃ delta after, Traced.effect (setIndentation row width) b = (.ok delta, after) ∧
        after.Sound ∧ after.selection = b.selection := by
  rw [Buffer.effect_setIndentation, Document.checkRow_natCast bound]
  cases written : Margin.write width with
  | error fault => exact .inl ⟨fault, rfl, rfl⟩
  | ok margin =>
      right
      apply sound.effect_reindentRows
      · simp
      · intro line mem feed
        rw [List.mem_singleton] at mem
        subst mem
        exact sound.lines.margin_free written row feed
      · exact bound

end Buffer

end LinkerScriptEditor
