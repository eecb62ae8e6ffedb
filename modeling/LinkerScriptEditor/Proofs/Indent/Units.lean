import LinkerScriptEditor.Proofs.Indent.Column
import LinkerScriptEditor.Proofs.Indent.Settling

/-!
# Columns in whole units

A pass over all rows leaves every row where the decision for it puts it, so the columns that it
obtains on its way are the decisions on the lines it ends with. All of them are whole units, and
none is further than one unit below zero.
-/

namespace LinkerScriptEditor.Indent

variable {style : Style} {unit : Int} {a b lines : List Line} {row first count : Nat}

theorem Alike.settledLine_eq (alike : Alike row a b) (style : Style) (unit : Int) :
    settledLine style unit a row = settledLine style unit b row := by
  rw [settledLine, settledLine, alike.own, alike.decideRow_eq style unit]

/-- Every row is where the decision for it puts it. -/
def Stable (style : Style) (unit : Int) (lines : List Line) : Prop :=
  ∀ row, lines.getD row [] = settledLine style unit lines row

/-- A row that has been settled is where the decision for it puts it at the end. -/
theorem getD_foldl_settleRow (bounds : ∀ r ∈ List.range' first count, r < lines.length)
    (mem : row ∈ List.range' first count) :
    let settled := (List.range' first count).foldl (settleRow style unit) lines
    settled.getD row [] = settledLine style unit settled row := by
  intro settled
  -- on the rows still to be settled; what a later row is settled to changes nothing for this one
  induction count generalizing first lines with
  | zero => cases mem
  | succ count ih =>
      have kept : Kept (List.range' first (count + 1)) lines settled :=
        kept_foldl_settleRow style unit _ lines
      have same := kept.alike.settledLine_eq style unit
      rw [List.range'_succ] at bounds mem
      rcases List.mem_cons.mp mem with rfl | later
      · have tail : Kept (List.range' (row + 1) count) (settleRow style unit lines row)
            settled := by
          have := kept_foldl_settleRow style unit (List.range' (row + 1) count)
            (settleRow style unit lines row)
          rwa [← List.foldl_cons, ← List.range'_succ] at this
        have above : row ∉ List.range' (row + 1) count := fun inner =>
          Nat.not_succ_le_self row (List.mem_range'_1.mp inner).1
        rw [tail.outside row above, settleRow, getD_set_self _ (bounds row List.mem_cons_self),
          same]
      · have next : settled = (List.range' (first + 1) count).foldl (settleRow style unit)
            (settleRow style unit lines first) := by
          rw [← List.foldl_cons, ← List.range'_succ]
        rw [next]
        exact ih (bounds_set bounds) later

theorem reindent_eq_foldl (style : Style) (unit : Int) (lines : List Line) (start : Int)
    (stop : Option Int) :
    reindent style unit lines start stop =
      (rowsBetween (Document.atLeastOne lines).length start stop).foldl (settleRow style unit)
        (Document.atLeastOne lines) := by
  have rows : settlePlain (m := Id) Margin.ofColumn style unit =
      fun lines row => pure (settleRow style unit lines row) := by
    funext lines row
    rw [settlePlain, linePlain, settleRow, settledLine]
    split <;> rfl
  rw [reindent, pass_eq_plain exact_ofColumn, rows, List.foldlM_pure]
  rfl

theorem rowsBetween_all (count : Nat) : rowsBetween count 0 none = List.range' 0 count := rfl

theorem kept_reindent (style : Style) (unit : Int) (lines : List Line) (start : Int)
    (stop : Option Int) :
    Kept (rowsBetween (Document.atLeastOne lines).length start stop) (Document.atLeastOne lines)
      (reindent style unit lines start stop) := by
  rw [reindent_eq_foldl]
  exact kept_foldl_settleRow style unit _ _

/-- After a pass over all rows every row is where the decision for it puts it. -/
theorem stable_reindent (style : Style) (unit : Int) (lines : List Line) :
    Stable style unit (reindent style unit lines 0 none) := by
  intro row
  have kept := kept_reindent style unit lines 0 none
  by_cases bound : row < (Document.atLeastOne lines).length
  · rw [reindent_eq_foldl, rowsBetween_all]
    apply getD_foldl_settleRow
    · intro r mem
      have := List.mem_range'_1.mp mem
      omega
    · exact List.mem_range'_1.mpr ⟨Nat.zero_le row, by omega⟩
  · have past : (reindent style unit lines 0 none).getD row [] = [] := by
      apply List.getD_eq_default
      rw [kept.length]
      exact Nat.le_of_not_lt bound
    rw [settledLine, past]
    rfl

/-- Writes the margin for a column and keeps the column. -/
def keepColumn (column : Int) : StateM (List Int) Line := do
  modify (· ++ [column])
  return Margin.ofColumn column

/-- The columns that a pass over all rows obtains, in the order of the rows. Blank rows need none.
-/
def columns (style : Style) (unit : Int) (lines : List Line) : List Int :=
  ((pass keepColumn style unit lines 0 none).run []).2

def filled (lines : List Line) (row : Nat) : Bool := !(Line.body (lines.getD row [])).isEmpty

theorem filled_of_map_body (same : a.map Line.body = b.map Line.body) (row : Nat) :
    filled a row = filled b row := by
  rw [filled, filled, body_getD_of_map_body same]

theorem exact_keepColumn : Exact keepColumn := fun _ => rfl

theorem run_settlePlain_keepColumn (style : Style) (unit : Int) (lines : List Line) (row : Nat)
    (kept : List Int) :
    (settlePlain keepColumn style unit lines row).run kept =
      (settleRow style unit lines row,
        kept ++ if filled lines row then [(decideRow style lines unit row).column] else []) := by
  rw [settlePlain, linePlain, settleRow, settledLine, filled]
  cases (Line.body (lines.getD row [])).isEmpty with
  | true =>
      rw [if_pos rfl, if_pos rfl, Bool.not_true, if_neg Bool.false_ne_true, List.append_nil]
      rfl
  | false =>
      rw [if_neg Bool.false_ne_true, if_neg Bool.false_ne_true, Bool.not_false, if_pos rfl]
      rfl

/-- The columns that a pass obtains on its way are those that the settled lines lead to. -/
theorem run_foldlM_keepColumn (style : Style) (unit : Int) (lines : List Line)
    (first count : Nat) (kept : List Int) :
    let settled := (List.range' first count).foldl (settleRow style unit) lines
    ((List.range' first count).foldlM (settlePlain keepColumn style unit) lines).run kept =
      (settled, kept ++ ((List.range' first count).filter (filled lines)).map fun row =>
        (decideRow style settled unit row).column) := by
  intro settled
  induction count generalizing first lines kept with
  | zero => exact congrArg (Prod.mk lines) (List.append_nil kept).symm
  | succ count ih =>
      have all : Kept (List.range' first (count + 1)) lines settled :=
        kept_foldl_settleRow style unit _ lines
      have decision := all.alike.decideRow_eq style unit
      have bodies : (settleRow style unit lines first).map Line.body = lines.map Line.body :=
        map_body_set (body_settledLine style unit lines first)
      rw [List.range'_succ, List.foldlM_cons, StateT.run_bind, run_settlePlain_keepColumn,
        List.filter_cons]
      change ((List.range' (first + 1) count).foldlM (settlePlain keepColumn style unit)
        (settleRow style unit lines first)).run _ = _
      rw [ih, funext (filled_of_map_body bodies), decision, List.append_assoc]
      cases filled lines first with
      | true => rfl
      | false => rfl

theorem columns_eq_map (style : Style) (unit : Int) (lines : List Line) :
    columns style unit lines =
      ((List.range (Document.atLeastOne lines).length).filter
        (filled (Document.atLeastOne lines))).map fun row =>
          (decideRow style (reindent style unit lines 0 none) unit row).column := by
  rw [columns, pass_eq_plain exact_keepColumn, rowsBetween_all, run_foldlM_keepColumn,
    reindent_eq_foldl, rowsBetween_all, List.nil_append, List.range_eq_range']

section Whole

theorem FromAbove.dvd {rows : Array Line} {column : Int}
    (fromAbove : FromAbove rows unit row column)
    (above : ∀ anchor < row, unit ∣ (Line.indentation (rows.getD anchor []) : Int)) :
    unit ∣ column := by
  cases fromAbove with
  | margin => exact Int.dvd_zero unit
  | anchored lt brace => exact Int.dvd_add (above _ lt) (Int.dvd_mul_left _ unit)

theorem FromAbove.neg_unit_le {rows : Array Line} {column : Int}
    (fromAbove : FromAbove rows unit row column) (nonneg : 0 ≤ unit) : -unit ≤ column := by
  cases fromAbove with
  | margin => exact Int.neg_nonpos_of_nonneg nonneg
  | @anchored anchor rule lt brace =>
      have less := (units_mul_le brace nonneg).1
      change -unit ≤ (Line.indentation (rows.getD anchor []) : Int) + rule.units * unit
      omega

theorem dvd_toNat {column : Int} (whole : unit ∣ column) : unit ∣ (column.toNat : Int) := by
  by_cases nonneg : 0 ≤ column
  · rwa [Int.toNat_of_nonneg nonneg]
  · rw [Int.toNat_of_nonpos (by omega)]
    exact Int.dvd_zero unit

/-- Where every row is at its column, the indentation of every row is whole units. -/
theorem Stable.dvd_indentation (stable : Stable style unit lines) (row : Nat) :
    unit ∣ (Line.indentation (lines.getD row []) : Int) := by
  induction row using Nat.strongRecOn with
  | ind row ih =>
      rw [stable row, settledLine]
      split
      · exact Int.dvd_zero unit
      · rw [Margin.ofColumn, Line.indentation_spaces_append_body]
        apply dvd_toNat
        apply (fromAbove_decideRow style lines unit row).dvd
        intro anchor lt
        rw [Tracker.getD_toArray]
        exact ih anchor lt

theorem Stable.dvd_column (stable : Stable style unit lines) (row : Nat) :
    unit ∣ (decideRow style lines unit row).column := by
  apply (fromAbove_decideRow style lines unit row).dvd
  intro anchor _
  rw [Tracker.getD_toArray]
  exact stable.dvd_indentation anchor

/-- Whole units that are not below one unit less than nothing are that or nothing less. -/
theorem eq_neg_or_nonneg {column : Int} (whole : unit ∣ column) (bound : -unit ≤ column) :
    column = -unit ∨ 0 ≤ column := by
  by_cases nonneg : 0 ≤ column
  · exact .inr nonneg
  · have le : unit ≤ -column := Int.le_of_dvd (by omega) (Int.dvd_neg.mpr whole)
    exact .inl (by omega)

end Whole

end LinkerScriptEditor.Indent
