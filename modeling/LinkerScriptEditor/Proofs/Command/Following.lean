import LinkerScriptEditor.Proofs.Buffer.Following
import LinkerScriptEditor.Proofs.Command.Indentation

/-!
# Cursors and the commands that indent

Indenting the line of the cursor moves the line to the column decided from the rows above, and the
cursor goes with its text. A line break first moves the cursor to the new line.
-/

namespace LinkerScriptEditor.Command

open Traced Workspace

/-- What indenting the line of the cursor comes to. Its row is moved to the decided column, or
memory holds no margin for that and nothing happens. -/
structure Indents (w : Workspace) (row : Nat) (ran : Except Fault KeyResult × Workspace) :
    Prop where
  refused : Margin.capacity < (decided w row).column →
    ∃ fault, fault.IsLimit ∧ ran = (.error fault, w)
  moved : (decided w row).column ≤ Margin.capacity →
    ∃ after, w.buffer.Moved row (decided w row).column after.buffer ∧
      ran = ((Numeral.write (decided w row).column).map fun column =>
        .saying "indent_line" s!"indent {column}", after)

variable {w : Workspace} {row : Nat}

theorem indents_indentLine (cursor : w.buffer.cursor.OnRow row w.buffer.document.lines) :
    Indents w row (effect indentLine w) where
  refused := by
    intro wide
    obtain ⟨fault, limit, run⟩ := Buffer.effect_setIndentation_of_wide cursor.row_lt wide
    refine ⟨fault, limit, effect_indentLine_of_error cursor.row_eq ?_⟩
    rw [effect_indentRow_of_bound cursor.row_lt, run]
  moved := by
    intro fits
    obtain ⟨delta, after, run, moved⟩ :=
      Buffer.effect_setIndentation_moved cursor.row_lt (fun _ => cursor.column_le) fits
    have indented := effect_indentRow_of_bound cursor.row_lt
    rw [run] at indented
    refine ⟨_, ?_, effect_indentLine_of_ok cursor.row_eq indented⟩
    rw [buffer_emitted]
    exact moved

/-- A cursor within the lines can break its line, and then it is on a row that exists. -/
theorem effect_lineBreak {b : Buffer} (cursor : b.cursor.Within b.document.lines) :
    ∃ delta broken row, effect (Buffer.insertText ['\n'] none) b = (.ok delta, broken) ∧
      broken.cursor.OnRow row broken.document.lines := by
  obtain ⟨p, q, places, ordered⟩ := Buffer.places_eq_ok cursor cursor
  let broken := Buffer.commit "insert_text" b (Buffer.splice p q ['\n'] b)
  refine ⟨broken.delta "insert_text", broken, _, ?_, Buffer.onRow_splice ['\n'] ordered⟩
  rw [Buffer.effect_insertText, Buffer.effect_replaceRange]
  simp only [Option.getD_none, places]
  rfl

/-- Whenever a row is moved to another column, by a host, by indenting the line of the cursor or
below a line break, the cursor follows its text and all else stays where it is. The one exception
is a cursor inside the margin of a row that is at its column already: it rests. -/
theorem cursor_follows_text (cursor : w.buffer.cursor.Within w.buffer.document.lines) :
    (∀ row < w.buffer.document.lines.length, ∀ column : Int,
      let ran := effect (Buffer.setIndentation row column) w.buffer
      (Margin.capacity < column → ∃ fault, fault.IsLimit ∧ ran = (.error fault, w.buffer)) ∧
      (column ≤ Margin.capacity → ∃ delta after, ran = (.ok delta, after) ∧
        w.buffer.Moved row column after)) ∧
    Indents w w.buffer.cursor.row.toNat (effect indentLine w) ∧
    ∃ delta broken, effect (Buffer.insertText ['\n'] none) w.buffer = (.ok delta, broken) ∧
      Indents { w with buffer := broken } broken.cursor.row.toNat (effect newlineAndIndent w) := by
  refine ⟨?_, indents_indentLine cursor.onRow, ?_⟩
  · intro row bound column ran
    constructor
    · exact Buffer.effect_setIndentation_of_wide bound
    · apply Buffer.effect_setIndentation_moved bound
      intro here
      have le := cursor.column_le
      rwa [here, Int.toNat_natCast] at le
  · obtain ⟨delta, broken, row, run, onRow⟩ := effect_lineBreak cursor
    refine ⟨delta, broken, run, ?_⟩
    have same : broken.cursor.row.toNat = row := by
      rw [onRow.row_eq, Int.toNat_natCast]
    rw [newlineAndIndent, effect_bind_of_ok (effect_onBuffer run), same]
    exact indents_indentLine onRow

/-- Below a brace a line moves from its two tabs to column four, and a cursor between the tabs to
the text. -/
theorem cursor_follows_text_below_brace :
    let b := (Buffer.ofText none none "\x7b\n\t\ta".toList).setCursor ⟨1, 1⟩
    let w := ofBuffer b (.ofEnvironment [])
    b.cursor.Within b.document.lines ∧ 1 < b.document.lines.length ∧
      (decided w 1).column ≤ Margin.capacity ∧
      ∃ after, effect indentLine w = (.ok (.saying "indent_line" "indent 4"), after) ∧
        after.buffer.cursor = ⟨1, 4⟩ := by
  intro b w
  have cursor : w.buffer.cursor.Within w.buffer.document.lines := by decide
  have column : (decided w 1).column = 4 := by decide
  have fits : (decided w 1).column ≤ Margin.capacity := by decide
  have indents : Indents w 1 (effect indentLine w) := (cursor_follows_text cursor).2.1
  obtain ⟨after, moved, run⟩ := indents.moved fits
  have awake : ¬w.buffer.Resting 1 (decided w 1).column := by
    intro resting
    exact absurd resting.settled (by decide)
  have digits : Numeral.write 4 = .ok "4" :=
    Numeral.write_eq_ok_iff.mpr ⟨Numeral.isShort_of_le_capacity (by decide) (by decide), by decide⟩
  refine ⟨cursor, by decide, fits, after, ?_, (moved.follows.mpr awake).trans (by decide)⟩
  rw [run, column, digits]
  rfl

/-- Below a brace the line is at column four already. A cursor at the beginning of its margin stays
there, though the text begins at column four. -/
theorem indentLine_rests_in_margin :
    let b := (Buffer.ofText none none "\x7b\n    a".toList).setCursor ⟨1, 0⟩
    let w := ofBuffer b (.ofEnvironment [])
    b.cursor.Within b.document.lines ∧ (decided w 1).column = 4 ∧
      (effect indentLine w).2.buffer.cursor = ⟨1, 0⟩ ∧
      b.cursor.follow 1 (Line.indentation (b.document.lineAt 1)) 4 = ⟨1, 4⟩ := by
  intro b w
  have cursor : w.buffer.cursor.OnRow 1 w.buffer.document.lines := ⟨rfl, by decide, by decide⟩
  have column : (decided w 1).column = 4 := by decide
  obtain ⟨after, moved, run⟩ := (indents_indentLine cursor).moved (by decide)
  have resting : w.buffer.Resting 1 (decided w 1).column := ⟨rfl, by decide, by decide⟩
  refine ⟨by decide, column, ?_, by decide⟩
  rw [run, moved.rests resting]
  rfl

end LinkerScriptEditor.Command
