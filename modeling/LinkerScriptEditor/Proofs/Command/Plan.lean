import LinkerScriptEditor.Proofs.Buffer.Restoring
import LinkerScriptEditor.Proofs.Command.Region
import LinkerScriptEditor.Proofs.Indent.Noninterference

/-!
# Plans of the commands that indent

To indent the line of the cursor, and to indent a region, is to decide which lines come into the
place of which rows and to overwrite these rows as one edit. What is decided does not hang on the
margins that the rows have, so once a plan is carried out the plan is still the same, and its rows
hold what it asks for: to carry it out again changes nothing.
-/

namespace LinkerScriptEditor.Command

open Traced Workspace

/-- The lines that come into the place of the rows from a row on, the label of the edit, and what is
reported afterwards. -/
structure Plan where
  start : Int
  lines : List Line
  label : String
  report : Except Fault KeyResult

/-- What carrying out a plan comes to, and the buffer that it leaves. -/
def Plan.carryOut (p : Plan) (b : Buffer) : Except Fault KeyResult × Buffer :=
  match effect (Buffer.reindentRows p.start p.lines p.label) b with
  | (.error fault, after) => (.error fault, after)
  | (.ok _, after) => (p.report, after)

/-- A plan for each buffer under each setting, or the fault for which there is none. -/
abbrev Planning := Settings → Buffer → Except Fault Plan

/-- The line of a row at a column, if memory holds the margin. -/
def Plan.move (row : Int) (line : Line) (column : Int) : Except Fault Plan :=
  (Margin.write column).map fun margin => {
    start := row
    lines := [margin ++ Line.body line]
    label := "set_indentation"
    report := (Numeral.write column).map fun column =>
      .saying "indent_line" s!"indent {column}" }

/-- The line of the cursor at the column that is decided for it. -/
def planLine : Planning := fun s b => do
  let decision ← b.document.indentDecision s.style s.unit b.cursor.row
  Plan.move b.cursor.row (b.document.lineAt b.cursor.row.toNat) decision.column

/-- The rows of the region as they come out of a pass. -/
def planRegion : Planning := fun s b => do
  let (first, last) := regionRows b
  let lines ← Indent.reindentBounded s.style s.unit b.document.lines first (some (last + 1))
  return {
    start := first
    lines := Document.slice lines first (last + 1)
    label := "indent_region"
    report := (Numeral.write (last - first + 1)).map fun count =>
      .saying "indent_region" s!"indented {count} lines" }

/-- What following a planning comes to, and the buffer that it leaves. -/
def Planning.follow (planning : Planning) (s : Settings) (b : Buffer) :
    Except Fault KeyResult × Buffer :=
  match planning s b with
  | .error fault => (.error fault, b)
  | .ok p => p.carryOut b

/-- All that a command does to the buffer, and all that it answers, is to follow a planning that
stays with a plan once it is carried out. -/
structure Follows (command : Traced Workspace KeyResult) (planning : Planning) : Prop where
  comes : ∀ w, ((effect command w).1, (effect command w).2.buffer) =
    planning.follow w.settings w.buffer
  stays : ∀ s b p, planning s b = .ok p → planning s (p.carryOut b).2 = .ok p

variable {p : Plan} {b : Buffer}

section CarryOut

variable {planning : Planning} {s : Settings}

theorem Planning.follow_of_error {fault : Fault} (refused : planning s b = .error fault) :
    planning.follow s b = (.error fault, b) := by
  rw [follow, refused]

theorem Planning.follow_of_ok (planned : planning s b = .ok p) :
    planning.follow s b = p.carryOut b := by
  rw [follow, planned]

/-- The rows of a plan exist. -/
structure Plan.Fits (p : Plan) (b : Buffer) (first : Nat) : Prop where
  start : p.start = first
  some : p.lines ≠ []
  fits : first + p.lines.length ≤ b.document.lines.length

/-- The buffer with the lines of a plan in the place of its rows. -/
def Plan.edited (p : Plan) (first : Nat) (b : Buffer) : Buffer :=
  Buffer.commit p.label b (Buffer.overwrite first p.lines b)

theorem Plan.Fits.lines_edited {first : Nat} (fits : p.Fits b first) :
    (p.edited first b).document.lines = b.document.lines.take first ++ p.lines ++
      b.document.lines.drop (first + p.lines.length) :=
  Buffer.lines_overwrite fits.some fits.fits

theorem Plan.Fits.length_edited {first : Nat} (fits : p.Fits b first) :
    (p.edited first b).document.lines.length = b.document.lines.length := by
  rw [fits.lines_edited, length_splice fits.fits]

/-- A plan is refused or already carried out, and the buffer stays as it is, or its rows are
overwritten. -/
theorem Plan.carryOut_cases (p : Plan) (b : Buffer) :
    (p.carryOut b).2 = b ∨
      ∃ first, p.Fits b first ∧ p.carryOut b = (p.report, p.edited first b) := by
  rw [Plan.carryOut, Buffer.effect_reindentRows]
  cases checked : b.document.checkRow p.start with
  | error fault => exact .inl rfl
  | ok first =>
      cases checkedLast : b.document.checkRow (p.start + p.lines.length - 1) with
      | error fault => exact .inl rfl
      | ok last =>
          dsimp only
          by_cases same :
            (b.document.lines.take (first + p.lines.length)).drop first = p.lines
          · rw [if_pos same]
            exact .inl rfl
          · obtain ⟨start, below⟩ := Document.checkRow_eq_ok checked
            have bound := Document.checkRow_eq_ok checkedLast
            have some : p.lines ≠ [] := by
              intro none
              apply same
              rw [none, List.length_nil, Nat.add_zero, List.drop_eq_nil_iff]
              exact List.length_take_le _ _
            rw [if_neg same]
            exact .inr ⟨first, ⟨start, some, by omega⟩, rfl⟩

/-- Once a plan is carried out, it is carried out. -/
theorem Plan.carryOut_again (p : Plan) (b : Buffer) :
    p.carryOut (p.carryOut b).2 = p.carryOut b := by
  rcases p.carryOut_cases b with same | ⟨first, fits, edited⟩
  · rw [same]
  · have length := fits.length_edited
    have pos : 0 < p.lines.length := List.length_pos_iff.mpr fits.some
    have room := fits.fits
    have last : (first : Int) + p.lines.length - 1 =
        ((first + (p.lines.length - 1) : Nat) : Int) := by
      omega
    have front : (b.document.lines.take first).length = first := List.length_take_of_le (by omega)
    have there : ((p.edited first b).document.lines.take (first + p.lines.length)).drop first =
        p.lines := by
      rw [fits.lines_edited, List.take_left' (by rw [List.length_append, front]),
        List.drop_left' front]
    rw [edited]
    dsimp only
    rw [Plan.carryOut, fits.start, Buffer.effect_reindentRows, last,
      Document.checkRow_natCast (by omega), Document.checkRow_natCast (by omega)]
    dsimp only
    rw [if_pos there]

/-- Carrying out a plan records one edit, or none. -/
theorem Plan.committed_carryOut (p : Plan) (b : Buffer) :
    (p.carryOut b).2 = b ∨ Buffer.Committed b (p.carryOut b).2 := by
  rcases p.carryOut_cases b with same | ⟨first, fits, edited⟩
  · exact .inl same
  · rw [edited]
    exact .inr ⟨p.label, _, _, rfl⟩

end CarryOut

section Line

variable {s : Settings} {row : Nat}

theorem Plan.move_eq_ok {line : Line} {row column : Int}
    (moves : Plan.move row line column = .ok p) :
    p.start = row ∧ p.lines = [Line.moveTo column line] := by
  rw [Plan.move] at moves
  cases written : Margin.write column with
  | error fault =>
      rw [written] at moves
      cases moves
  | ok margin =>
      rw [written] at moves
      cases moves
      obtain ⟨-, rfl⟩ := Margin.write_eq_ok_iff.mp written
      exact ⟨rfl, rfl⟩

theorem planLine_of_bound (cursor : b.cursor.row = row) (bound : row < b.document.lines.length) :
    planLine s b = Plan.move row (b.document.lineAt row)
      (Indent.decideRow s.style b.document.lines s.unit row).column := by
  rw [planLine, cursor, Document.indentDecision, Document.checkRow_natCast bound]
  rfl

theorem planLine_of_outside {fault : Fault}
    (outside : b.document.checkRow b.cursor.row = .error fault) : planLine s b = .error fault := by
  rw [planLine, Document.indentDecision, outside]
  rfl

theorem row_edited (p : Plan) (first : Nat) (b : Buffer) :
    (p.edited first b).cursor.row = b.cursor.row := by
  change (if _ then (⟨b.cursor.row, _⟩ : Position) else b.cursor).row = _
  split <;> rfl

/-- At another column a line is what it was without its leading blanks. -/
theorem Plan.Fits.alike_edited {column : Int} (fits : p.Fits b row)
    (moved : p.lines = [Line.moveTo column (b.document.lineAt row)]) :
    Indent.Alike row (p.edited row b).document.lines b.document.lines where
  above := by
    intro r lt
    rw [fits.lines_edited]
    exact getD_splice_front (Nat.le_of_add_right_le fits.fits) lt
  own := by
    have inside : 0 < p.lines.length := List.length_pos_iff.mpr fits.some
    have here : (p.edited row b).document.lines.getD (row + 0) [] = p.lines.getD 0 [] := by
      rw [fits.lines_edited]
      exact getD_splice_inside (Nat.le_of_add_right_le fits.fits) inside
    rw [Nat.add_zero] at here
    rw [here, moved]
    exact (Line.body_spaces_append _ _).trans (Line.body_body _)

/-- The row of the cursor stays the same up to its margin, and so do the rows above it. -/
theorem planLine_stays (planned : planLine s b = .ok p) :
    planLine s (p.carryOut b).2 = .ok p := by
  rcases p.carryOut_cases b with same | ⟨first, fits, edited⟩
  · rw [same]
    exact planned
  cases checked : b.document.checkRow b.cursor.row with
  | error fault =>
      rw [planLine_of_outside checked] at planned
      cases planned
  | ok row =>
      obtain ⟨cursor, bound⟩ := Document.checkRow_eq_ok checked
      rw [planLine_of_bound cursor bound] at planned
      obtain ⟨start, moved⟩ := Plan.move_eq_ok planned
      obtain rfl : first = row := Int.ofNat_inj.mp (fits.start.symm.trans start)
      have alike := fits.alike_edited moved
      have below := Nat.lt_of_lt_of_eq bound fits.length_edited.symm
      rw [edited, planLine_of_bound ((row_edited p first b).trans cursor) below,
        alike.decideRow_eq, ← planned, Plan.move, Document.lineAt, alike.own]
      rfl

end Line

section Region

variable {s : Settings}

theorem planRegion_of_rows {first last : Int} (rows : regionRows b = (first, last)) :
    planRegion s b =
      (Indent.reindentBounded s.style s.unit b.document.lines first (some (last + 1))).map
        fun lines => {
          start := first
          lines := Document.slice lines first (last + 1)
          label := "indent_region"
          report := (Numeral.write (last - first + 1)).map fun count =>
            .saying "indent_region" s!"indented {count} lines" } := by
  rw [planRegion, rows]
  change (Indent.reindentBounded s.style s.unit b.document.lines first (some (last + 1)) >>= _) = _
  cases Indent.reindentBounded s.style s.unit b.document.lines first (some (last + 1)) <;> rfl

/-- A region has no rows only if there are none. -/
theorem regionRows_le (pos : 0 < b.document.lines.length) :
    (regionRows b).1 ≤ (regionRows b).2 := by
  rw [regionRows]
  cases b.selection with
  | none =>
      change (0 : Int) ≤ (b.document.lines.length : Int) - 1
      omega
  | some selected =>
      change min selected.anchor.row selected.point.row ≤
        max selected.anchor.row selected.point.row
      omega

theorem Plan.Fits.regionRows_edited {first : Nat} (fits : p.Fits b first) :
    regionRows (p.edited first b) = regionRows b := by
  have selection : (p.edited first b).selection = b.selection := rfl
  rw [regionRows, regionRows, selection, Document.lastRow, Document.lineCount, fits.length_edited]
  rfl

/-- The rows of a pass, put back into the lines that it was made over, give the lines that it came
to. -/
theorem splice_slice {lines result : List Line} {first last : Nat} (le : first ≤ last)
    (there : first < lines.length)
    (kept : Indent.Kept (Indent.rowsBetween lines.length first (some (last + 1 : Nat))) lines
      result) :
    let region := Document.slice result first (last + 1 : Nat)
    lines.take first ++ region ++ lines.drop (first + region.length) = result := by
  intro region
  have cut : region = (result.take (min (last + 1) lines.length)).drop first := by
    rw [← kept.length]
    exact slice_natCast result (kept.length ▸ Nat.le_of_lt there)
  have count : region.length = min (last + 1) lines.length - first := by
    rw [← kept.length]
    exact length_slice (kept.length ▸ Nat.le_of_lt there)
  have fits : first + region.length ≤ lines.length := by omega
  apply Indent.ext_getD
  · rw [length_splice fits, kept.length]
  · intro row
    by_cases inside : first ≤ row ∧ row < first + region.length
    · obtain ⟨k, rfl⟩ := Nat.exists_eq_add_of_le inside.1
      rw [getD_splice_inside (Nat.le_of_lt there) (by omega), cut, List.getD_eq_getElem?_getD,
        List.getElem?_drop, List.getElem?_take_of_lt (by omega), ← List.getD_eq_getElem?_getD]
    · rw [getD_splice_outside fits (by omega)]
      refine (kept.outside row fun mem => ?_).symm
      have bounds := Indent.mem_rowsBetween.mp mem
      simp only [Option.mem_def, Option.some.injEq, forall_eq'] at bounds
      omega

/-- The rows come out of a second pass as they came out of the first. -/
theorem planRegion_stays (planned : planRegion s b = .ok p) :
    planRegion s (p.carryOut b).2 = .ok p := by
  rcases p.carryOut_cases b with same | ⟨start, fits, edited⟩
  · rw [same]
    exact planned
  rcases rows : regionRows b with ⟨first, last⟩
  have plan := planRegion_of_rows (s := s) rows
  rw [planned] at plan
  cases pass : Indent.reindentBounded s.style s.unit b.document.lines first (some (last + 1)) with
  | error fault =>
      rw [pass] at plan
      cases plan
  | ok lines =>
      rw [pass] at plan
      obtain rfl : p = _ := Except.ok.inj plan
      obtain rfl : first = start := fits.start
      have there : start < b.document.lines.length := by
        have some := List.length_pos_iff.mpr fits.some
        have room := fits.fits
        omega
      have ordered := regionRows_le (Nat.zero_lt_of_lt there)
      rw [rows] at ordered
      obtain ⟨last, rfl⟩ :=
        Int.eq_ofNat_of_zero_le (Int.le_trans (Int.natCast_nonneg start) ordered)
      have kept := Indent.kept_of_reindentBounded pass
      rw [Document.atLeastOne_of_ne_nil (List.ne_nil_of_length_pos (Nat.zero_lt_of_lt there))]
        at kept
      -- the pass leaves the other rows alone, so the document now holds just what it came to
      have settled := (fits.lines_edited).trans (splice_slice (Int.ofNat_le.mp ordered) there kept)
      rw [edited, planRegion_of_rows (fits.regionRows_edited.trans rows), settled,
        Indent.reindentBounded_again pass]
      rfl

end Region

section Follows

variable {w : Workspace}

theorem effect_indentRow_of_outside {row : Int} {fault : Fault}
    (outside : w.buffer.document.checkRow row = .error fault) :
    effect (indentRow row) w = (.error fault, w) := by
  have none : w.buffer.document.indentDecision w.settings.style w.settings.unit row =
      .error fault := by
    rw [Document.indentDecision, outside]
    rfl
  rw [indentRow, effect_bind_of_ok (effect_readUnit w), effect_bind_of_ok (effect_readStyle w),
    effect_bind_of_ok (effect_get w), none, effect_bind_of_error (effect_ofExcept _ w)]

/-- The row of the cursor is moved to the column that is decided for it. -/
theorem follows_indentLine : Follows indentLine planLine where
  comes := by
    intro w
    cases checked : w.buffer.document.checkRow w.buffer.cursor.row with
    | error fault =>
        rw [Planning.follow_of_error (planLine_of_outside checked),
          effect_indentLine_of_error rfl (effect_indentRow_of_outside checked)]
    | ok row =>
        obtain ⟨cursor, bound⟩ := Document.checkRow_eq_ok checked
        have plan := planLine_of_bound (s := w.settings) cursor bound
        have ran := effect_indentRow_of_bound bound
        rw [Buffer.effect_setIndentation, Document.checkRow_natCast bound] at ran
        rw [Plan.move] at plan
        change planLine w.settings w.buffer = (Margin.write (decided w row).column).map _ at plan
        cases written : Margin.write (decided w row).column with
        | error fault =>
            rw [written] at ran plan
            rw [Planning.follow_of_error plan, effect_indentLine_of_error cursor ran]
        | ok margin =>
            rw [written] at ran plan
            rw [Planning.follow_of_ok plan, Plan.carryOut]
            dsimp only at ran ⊢
            rcases edit : effect (Buffer.reindentRows row
              [margin ++ Line.body (w.buffer.document.lineAt row)] "set_indentation") w.buffer with
              ⟨fault | delta, after⟩
            · rw [edit] at ran
              rw [effect_indentLine_of_error cursor ran]
            · rw [edit] at ran
              rw [effect_indentLine_of_ok cursor ran, buffer_emitted, decided]
  stays := fun _ _ _ planned => planLine_stays planned

theorem follows_indentRegion : Follows indentRegion planRegion where
  comes := by
    intro w
    rcases rows : regionRows w.buffer with ⟨first, last⟩
    have plan := planRegion_of_rows (s := w.settings) rows
    rw [effect_indentRegion rows]
    cases pass : Indent.reindentBounded w.settings.style w.settings.unit w.buffer.document.lines
      first (some (last + 1)) with
    | error fault =>
        rw [pass] at plan
        rw [Planning.follow_of_error plan]
    | ok lines =>
        rw [pass] at plan
        rw [Planning.follow_of_ok plan, Plan.carryOut]
        dsimp only
        rcases effect (Buffer.reindentRows first (Document.slice lines first (last + 1))
          "indent_region") w.buffer with ⟨fault | delta, after⟩
        · rfl
        · dsimp only
          rw [buffer_emitted]
  stays := fun _ _ _ planned => planRegion_stays planned

/-- Followed twice, a planning comes to what it came to at first, and the buffer stays. -/
theorem Follows.again {command : Traced Workspace KeyResult} {planning : Planning}
    (follows : Follows command planning) (s : Settings) (b : Buffer) :
    planning.follow s (planning.follow s b).2 = planning.follow s b := by
  cases planned : planning s b with
  | error fault =>
      rw [Planning.follow_of_error planned]
      exact Planning.follow_of_error planned
  | ok p =>
      rw [Planning.follow_of_ok planned, Planning.follow_of_ok (follows.stays s b p planned),
        p.carryOut_again]

/-- Following a planning records one edit, or none. -/
theorem Planning.committed_follow (planning : Planning) (s : Settings) (b : Buffer) :
    (planning.follow s b).2 = b ∨ Buffer.Committed b (planning.follow s b).2 := by
  cases planned : planning s b with
  | error fault =>
      rw [Planning.follow_of_error planned]
      exact .inl rfl
  | ok p =>
      rw [Planning.follow_of_ok planned]
      exact p.committed_carryOut b

end Follows

end LinkerScriptEditor.Command
