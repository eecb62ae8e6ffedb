import LinkerScriptEditor.Proofs.Command.Safety
import LinkerScriptEditor.Proofs.Indent.Pass

/-!
# Safety of the commands that indent

A row is indented from the rows above it, and a region from its first row down. Memory has to hold
a margin one unit wider than that of a row above in the one case, and a unit for each row in the
other. A workspace where it does is roomy, and there no command is refused.
-/

namespace LinkerScriptEditor

namespace Workspace

/-- Memory holds a margin one unit wider than that of any row above a row. -/
def RoomyAbove (w : Workspace) (row : Nat) : Prop :=
  ∀ anchor < row, (Line.indentation (w.buffer.document.lineAt anchor) : Int) + w.settings.unit ≤
    Margin.capacity

/-- Memory holds a margin one unit wider than that of any line, and one of a unit for each row but
the first. -/
structure Roomy (w : Workspace) : Prop where
  lines : ∀ line ∈ w.buffer.document.lines,
    (Line.indentation line : Int) + w.settings.unit ≤ Margin.capacity
  rows : w.buffer.document.lastRow * w.settings.unit ≤ Margin.capacity

variable {w : Workspace}

theorem Roomy.above (roomy : w.Roomy) {row : Nat} (le : row ≤ w.buffer.document.lines.length) :
    w.RoomyAbove row := by
  intro anchor lt
  apply roomy.lines
  have inside : anchor < w.buffer.document.lines.length := Nat.lt_of_lt_of_le lt le
  rw [Document.lineAt, List.getD_eq_getElem?_getD, List.getElem?_eq_getElem inside]
  exact List.getElem_mem inside

theorem Roomy.lastRow_bounds (roomy : w.Roomy) (ready : w.Ready) :
    0 ≤ w.buffer.document.lastRow ∧ w.buffer.document.lastRow ≤ Margin.capacity := by
  have pos := ready.sound.lines.length_pos
  have last : w.buffer.document.lastRow = (w.buffer.document.lines.length : Int) - 1 := rfl
  have nonneg : 0 ≤ w.buffer.document.lastRow := by omega
  refine ⟨nonneg, ?_⟩
  calc w.buffer.document.lastRow
      = w.buffer.document.lastRow * 1 := (Int.mul_one _).symm
    _ ≤ w.buffer.document.lastRow * w.settings.unit :=
        Int.mul_le_mul_of_nonneg_left ready.unit_pos nonneg
    _ ≤ Margin.capacity := roomy.rows

theorem RoomyAbove.column_bounds {row : Nat} {column : Int} (roomy : w.RoomyAbove row)
    (ready : w.Ready)
    (fromAbove : Indent.FromAbove w.buffer.document.lines.toArray w.settings.unit row column) :
    -Margin.capacity ≤ column ∧ column ≤ Margin.capacity := by
  apply fromAbove.bounds (Int.le_of_lt ready.unit_pos)
  · decide
  · intro anchor lt
    rw [Tracker.getD_toArray]
    exact roomy anchor lt

end Workspace

namespace Command

open Traced Workspace

variable {w : Workspace}

/-- The column that a row is indented to. -/
def decided (w : Workspace) (row : Nat) : Indent.Decision :=
  Indent.decideRow w.settings.style w.buffer.document.lines w.settings.unit row

theorem effect_indentRow_of_bound {row : Nat} (bound : row < w.buffer.document.lines.length) :
    effect (indentRow row) w =
      match effect (Buffer.setIndentation row (decided w row).column) w.buffer with
      | (.error fault, b) => (.error fault, { w with buffer := b })
      | (.ok _, b) =>
        (.ok (decided w row), ({ w with buffer := b } : Workspace).emitted "indent.line" (.dict
          [("row", .int row), ("column", .int (decided w row).column),
            ("rule", .str (decided w row).rule.name)])) := by
  have decision : w.buffer.document.indentDecision w.settings.style w.settings.unit row =
      .ok (decided w row) := by
    rw [Document.indentDecision, Document.checkRow_natCast bound]
    rfl
  rw [indentRow, effect_bind_of_ok (effect_readUnit w), effect_bind_of_ok (effect_readStyle w),
    effect_bind_of_ok (effect_get w), decision,
    effect_bind_of_ok (effect_ofExcept (.ok (decided w row)) w)]
  rcases run : effect (Buffer.setIndentation row (decided w row).column) w.buffer with
    ⟨fault | delta, b⟩
  · rw [effect_bind_of_error (effect_onBuffer run)]
  · rw [effect_bind_of_ok (effect_onBuffer run), effect_bind_of_ok (effect_emit _ _ _),
      effect_pure]

/-- A row is indented to a column that the rows above leave to it, or the margin is refused. -/
theorem effect_indentRow (ready : w.Ready) {row : Nat}
    (bound : row < w.buffer.document.lines.length) :
    ∃ decision : Indent.Decision,
      Indent.FromAbove w.buffer.document.lines.toArray w.settings.unit row decision.column ∧
      ((∃ fault, Margin.write decision.column = .error fault ∧
          effect (indentRow row) w = (.error fault, w)) ∨
        ∃ after, effect (indentRow row) w = (.ok decision, after) ∧
          after.buffer.Sound ∧ w.Frame after) := by
  refine ⟨decided w row, Indent.fromAbove_decideRow _ _ _ _, ?_⟩
  rw [effect_indentRow_of_bound bound]
  rcases ready.sound.effect_setIndentation bound (decided w row).column with
    ⟨fault, refused, run⟩ | ⟨delta, after, run, sound, selection⟩
  · left
    rw [run]
    exact ⟨fault, refused, rfl⟩
  · right
    rw [run]
    refine ⟨_, rfl, ?_, ?_⟩
    · rw [buffer_emitted]
      exact sound
    · exact (frame_buffer w selection).trans (frame_emitted _ _ _)

theorem effect_indentLine_of_error {row : Int} (cursor : w.buffer.cursor.row = row)
    {fault : Fault} {after : Workspace} (run : effect (indentRow row) w = (.error fault, after)) :
    effect indentLine w = (.error fault, after) := by
  rw [indentLine, effect_bind_of_ok (effect_get w), cursor]
  dsimp only
  rw [effect_bind, effect_span, effect_bind_of_error (effect_zoom_workState run _)]

/-- The message comes last, when the row is already indented. -/
theorem effect_indentLine_of_ok {row : Int} (cursor : w.buffer.cursor.row = row)
    {decision : Indent.Decision} {after : Workspace}
    (run : effect (indentRow row) w = (.ok decision, after)) :
    effect indentLine w = ((Numeral.write decision.column).map fun column =>
      .saying "indent_line" s!"indent {column}", after) := by
  rw [indentLine, effect_bind_of_ok (effect_get w), cursor]
  dsimp only
  rw [effect_bind, effect_span, effect_bind_of_ok (effect_zoom_workState run _), effect_bind,
    effect_liftM]
  generalize Numeral.write decision.column = written
  cases written <;> rfl

/-- The line of the cursor is indented if there is room above it. -/
theorem safe_indentLine (ready : w.Ready) :
    Safe w (w.RoomyAbove w.buffer.cursor.row.toNat) (effect indentLine w) := by
  obtain ⟨place, cursor, bound, -⟩ := ready.sound.cursor.exists_place
  obtain ⟨decision, fromAbove, cases⟩ := effect_indentRow ready bound
  have row : w.buffer.cursor.row = place.row := congrArg Position.row cursor
  have bounds := fun roomy : w.RoomyAbove place.row => roomy.column_bounds ready fromAbove
  rw [row, Int.toNat_natCast]
  rcases cases with ⟨fault, refused, run⟩ | ⟨after, run, sound, frame⟩
  · obtain ⟨limit, wide⟩ := Margin.of_write_eq_error refused
    rw [effect_indentLine_of_error row run]
    apply Safe.refused limit _ ready.sound (Frame.refl w)
    intro roomy
    have narrow := (bounds roomy).2
    omega
  · rw [effect_indentLine_of_ok row run]
    cases written : Numeral.write decision.column with
    | ok column => exact .done rfl sound frame
    | error fault =>
        obtain ⟨limit, long⟩ := Numeral.of_write_eq_error written
        apply Safe.refused limit _ sound frame
        intro roomy
        have narrow := bounds roomy
        omega

/-- Below a line break the line is indented as if the break had been there before, since it leaves
no row above with more indentation. -/
theorem safe_newlineAndIndent (ready : w.Ready) : Safe w w.Roomy (effect newlineAndIndent w) := by
  obtain ⟨delta, after, run, sound, selection, row, indentation⟩ := ready.sound.effect_newline
  have frame : w.Frame { w with buffer := after } := frame_buffer w selection
  have safe := safe_indentLine (ready.frame frame sound)
  have nonneg := ready.sound.cursor.row_nonneg
  have bound := ready.sound.cursor.row_lt
  rw [newlineAndIndent, effect_bind_of_ok (effect_onBuffer run)]
  apply (safe.after frame).mono
  intro roomy anchor lt
  change anchor < after.cursor.row.toNat at lt
  rw [row] at lt
  have less := indentation anchor (by omega)
  have fits := roomy.above (Nat.le_refl _) anchor (by omega)
  change (Line.indentation (after.document.lineAt anchor) : Int) + w.settings.unit ≤ _
  omega

theorem slice_all {lines : List Line} : Document.slice lines 0 lines.length = lines := by
  have none : Document.bound lines.length 0 = 0 := Document.bound_natCast (Nat.zero_le _)
  rw [Document.slice, Document.bound_natCast (Nat.le_refl _), none, List.take_length,
    List.drop_zero]

/-- A region is indented as one edit, then the bus is told, and the message comes last. -/
theorem effect_indentRegion {first last : Int} (region : regionRows w.buffer = (first, last)) :
    effect indentRegion w =
      match Indent.reindentBounded w.settings.style w.settings.unit w.buffer.document.lines first
        (some (last + 1)) with
      | .error fault => (.error fault, w)
      | .ok lines =>
        match effect (Buffer.reindentRows first (Document.slice lines first (last + 1))
          "indent_region") w.buffer with
        | (.error fault, b) => (.error fault, { w with buffer := b })
        | (.ok _, b) =>
          ((Numeral.write (last - first + 1)).map fun count =>
              .saying "indent_region" s!"indented {count} lines",
            ({ w with buffer := b } : Workspace).emitted "indent.region"
              (.dict [("first", .int first), ("last", .int last)])) := by
  rw [indentRegion, effect_bind_of_ok (effect_get w), region]
  dsimp only
  rw [effect_bind, effect_within, effect_bind_of_ok (effect_readUnit w),
    effect_bind_of_ok (effect_readStyle w), effect_bind_of_ok (effect_get w), effect_bind,
    effect_ofExcept]
  cases Indent.reindentBounded w.settings.style w.settings.unit w.buffer.document.lines first
    (some (last + 1)) with
  | error fault => rfl
  | ok lines =>
      dsimp only
      rcases run : effect (Buffer.reindentRows first (Document.slice lines first (last + 1))
        "indent_region") w.buffer with ⟨fault | delta, b⟩
      · rw [effect_bind_of_error (effect_onBuffer run)]
      · rw [effect_bind_of_ok (effect_onBuffer run), effect_pure]
        dsimp only
        rw [effect_bind_of_ok (effect_emit _ _ _), effect_bind, effect_liftM]
        cases Numeral.write (last - first + 1) <;> rfl

/-- Without a selection all rows are indented. -/
theorem effect_indentRegion_all (unselected : w.buffer.selection = none)
    (ne : w.buffer.document.lines ≠ []) :
    effect indentRegion w =
      match Indent.reindentBounded w.settings.style w.settings.unit w.buffer.document.lines 0
        (some w.buffer.document.lines.length) with
      | .error fault => (.error fault, w)
      | .ok lines =>
        match effect (Buffer.reindentRows 0 lines "indent_region") w.buffer with
        | (.error fault, b) => (.error fault, { w with buffer := b })
        | (.ok _, b) =>
          ((Numeral.write (w.buffer.document.lastRow - 0 + 1)).map fun count =>
              .saying "indent_region" s!"indented {count} lines",
            ({ w with buffer := b } : Workspace).emitted "indent.region"
              (.dict [("first", .int 0), ("last", .int w.buffer.document.lastRow)])) := by
  have region : regionRows w.buffer = (0, w.buffer.document.lastRow) := by
    rw [regionRows, unselected]
  have count : w.buffer.document.lastRow + 1 = w.buffer.document.lines.length :=
    Int.sub_add_cancel _ _
  have before : (Document.atLeastOne w.buffer.document.lines).length =
      w.buffer.document.lines.length := by
    rw [Document.atLeastOne_of_ne_nil ne]
  rw [effect_indentRegion region, count]
  rcases (Indent.robust_length _).reindentBounded w.settings.style w.settings.unit before 0
    (some w.buffer.document.lines.length) with ⟨lines, pass, length⟩ | ⟨fault, pass, -⟩
  · have whole : Document.slice lines 0 w.buffer.document.lines.length = lines := by
      rw [← length, slice_all]
    rw [pass]
    dsimp only
    rw [whole]
  · rw [pass]

/-- Without a selection all rows are indented, if there is a margin for each of them. -/
theorem safe_indentRegion (ready : w.Ready) : Safe w w.Roomy (effect indentRegion w) := by
  rw [effect_indentRegion_all ready.unselected ready.sound.lines.ne_nil]
  rcases Indent.reindentBounded_rows ready.sound.lines (Int.le_of_lt ready.unit_pos)
    w.settings.style with ⟨result, pass, length, separated⟩ | ⟨fault, pass, limit, wide⟩
  · have fits : 0 + result.length ≤ w.buffer.document.lines.length := by omega
    obtain ⟨delta, after, run, sound, selection⟩ :=
      ready.sound.effect_reindentRows "indent_region" separated.ne_nil separated.free fits
    have written : effect (Buffer.reindentRows 0 result "indent_region") w.buffer = _ := run
    rw [pass]
    dsimp only
    rw [written]
    dsimp only
    generalize told : emitted "indent.region" _ _ = final
    have frame : w.Frame final := by
      rw [← told]
      exact (frame_buffer w selection).trans (frame_emitted _ _ _)
    have finalSound : final.buffer.Sound := by
      rw [← told, buffer_emitted]
      exact sound
    cases message : Numeral.write (w.buffer.document.lastRow - 0 + 1) with
    | ok rows => exact .done rfl finalSound frame
    | error fault =>
        obtain ⟨limit, long⟩ := Numeral.of_write_eq_error message
        apply Safe.refused limit _ finalSound frame
        intro roomy
        have rows := roomy.lastRow_bounds ready
        have capacity : 0 ≤ Margin.capacity := by decide
        omega
  · rw [pass]
    apply Safe.refused limit _ ready.sound (Frame.refl w)
    intro roomy
    have narrow := roomy.rows
    have last : w.buffer.document.lastRow = (w.buffer.document.lines.length : Int) - 1 := rfl
    rw [last] at narrow
    omega

end Command

end LinkerScriptEditor
