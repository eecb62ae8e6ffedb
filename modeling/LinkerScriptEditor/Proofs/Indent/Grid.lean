import LinkerScriptEditor.Proofs.Indent.Bounds
import LinkerScriptEditor.Proofs.Indent.Noninterference

/-!
# The grid of a pass

A pass changes nothing but the leading blanks of its rows. Over all rows it puts every row that is
not blank on a grid of whole units. Each row lies at most one unit further than some row above it,
so there are at most as many units in front of a row as there are rows above.
-/

namespace LinkerScriptEditor.Indent

variable {style : Style} {unit : Int} {lines : List Line} {row : Nat}

/-- A decision leaves room for one unit more than the rows above have. -/
theorem column_le_of_above (style : Style) (nonneg : 0 ≤ unit)
    (above : ∀ anchor < row, (Line.indentation (lines.getD anchor []) : Int) ≤ anchor * unit) :
    (decideRow style lines unit row).column ≤ row * unit := by
  have wide : 0 ≤ (row : Int) * unit := Int.mul_nonneg (Int.natCast_nonneg row) nonneg
  apply ((fromAbove_decideRow style lines unit row).bounds nonneg wide _).2
  intro anchor lt
  rw [Tracker.getD_toArray]
  calc
    (Line.indentation (lines.getD anchor []) : Int) + unit
      ≤ anchor * unit + unit := Int.add_le_add_right (above anchor lt) unit
    _ = (anchor + 1 : Nat) * unit := by rw [Int.natCast_succ, Int.add_mul, Int.one_mul]
    _ ≤ row * unit := Int.mul_le_mul_of_nonneg_right (by omega) nonneg

/-- With each row the grid goes on by one unit at most. -/
theorem Stable.indentation_le (stable : Stable style unit lines) (nonneg : 0 ≤ unit) (row : Nat) :
    (Line.indentation (lines.getD row []) : Int) ≤ row * unit := by
  induction row using Nat.strongRecOn with
  | ind row ih =>
      have wide : 0 ≤ (row : Int) * unit := Int.mul_nonneg (Int.natCast_nonneg row) nonneg
      have column := column_le_of_above style nonneg ih
      rw [stable row, settledLine]
      split
      · exact wide
      · rw [Margin.ofColumn, Line.indentation_spaces_append_body]
        omega

theorem Stable.column_le (stable : Stable style unit lines) (nonneg : 0 ≤ unit) (row : Nat) :
    (decideRow style lines unit row).column ≤ row * unit :=
  column_le_of_above style nonneg fun anchor _ => stable.indentation_le nonneg anchor

/-- A settled row that is not blank is its content at the column that is decided for it. -/
theorem settledLine_of_filled (style : Style) (unit : Int) (nonempty : filled lines row = true) :
    settledLine style unit lines row =
      Line.moveTo (decideRow style lines unit row).column (lines.getD row []) := by
  rw [filled, Bool.not_eq_true'] at nonempty
  rw [settledLine, nonempty, if_neg Bool.false_ne_true, Line.moveTo]

/-- In front of every row there are whole units, no more than there are rows above it. -/
theorem Stable.exists_units (stable : Stable style unit lines) (pos : 0 < unit) (row : Nat) :
    ∃ k ≤ row, (Line.indentation (lines.getD row []) : Int) = k * unit := by
  obtain ⟨width, rfl⟩ := Int.eq_ofNat_of_zero_le (Int.le_of_lt pos)
  obtain ⟨k, whole⟩ := Int.natCast_dvd_natCast.mp (stable.dvd_indentation row)
  have narrow := stable.indentation_le (Int.le_of_lt pos) row
  rw [whole, ← Int.natCast_mul, Int.ofNat_le, Nat.mul_comm width] at narrow
  refine ⟨k, Nat.le_of_mul_le_mul_right narrow (Int.natCast_pos.mp pos), ?_⟩
  rw [whole, Nat.mul_comm, Int.natCast_mul]

section Pass

variable {start : Int} {stop : Option Int}

/-- A pass that settles all rows, whatever its bounds. -/
theorem rowsBetween_of_whole {count : Nat} (whole : ∀ row < count, InRange start stop row) :
    rowsBetween count start stop = rowsBetween count 0 none := by
  rcases Nat.eq_zero_or_pos count with rfl | pos
  · cases stop <;> simp [rowsBetween]
  · have top := (whole 0 pos).1
    have first : start.toNat = 0 := by omega
    cases stop with
    | none => simp [rowsBetween, first]
    | some last =>
        have bottom := (whole (count - 1) (by omega)).2 last rfl
        have all : min last.toNat count = count := by omega
        simp [rowsBetween, first, all]

theorem getD_reindent (style : Style) (unit : Int)
    (mem : row ∈ rowsBetween (Document.atLeastOne lines).length start stop) :
    (reindent style unit lines start stop).getD row [] =
      settledLine style unit (reindent style unit lines start stop) row := by
  rw [reindent_eq_foldl]
  exact getD_foldl_settleRow (bounds_rowsBetween lines start stop) mem

/-- The rows outside of the range are as they were. Of those in the range the blank ones are empty,
and each of the others is its content at its column. -/
structure Resettled (column : Nat → Int) (start : Int) (stop : Option Int)
    (lines settled : List Line) : Prop where
  length : settled.length = (Document.atLeastOne lines).length
  outside : ∀ row : Nat, ¬InRange start stop row → settled.getD row [] = lines.getD row []
  blank : ∀ row : Nat, InRange start stop row → filled lines row = false →
    settled.getD row [] = []
  inside : ∀ row : Nat, InRange start stop row → filled lines row = true →
    settled.getD row [] = Line.moveTo (column row) (lines.getD row [])

theorem bound_of_filled (nonempty : filled lines row = true) : row < lines.length := by
  by_contra past
  simp [filled, List.getD_eq_getElem?_getD, past, Line.body] at nonempty

theorem filled_atLeastOne (lines : List Line) :
    filled (Document.atLeastOne lines) = filled lines := by
  funext row
  rw [filled, filled, Document.getD_atLeastOne]

theorem filled_reindent (style : Style) (unit : Int) (lines : List Line) (start : Int)
    (stop : Option Int) :
    filled (reindent style unit lines start stop) = filled lines := by
  rw [← filled_atLeastOne lines]
  funext row
  exact filled_of_map_body (kept_reindent style unit lines start stop).bodies row

/-- What a pass leaves is in place, if it has a result. -/
theorem resettled_reindent (style : Style) (unit : Int) (lines : List Line) (start : Int)
    (stop : Option Int) :
    let settled := reindent style unit lines start stop
    Resettled (fun row => (decideRow style settled unit row).column) start stop lines settled := by
  intro settled
  have kept : Kept _ (Document.atLeastOne lines) settled :=
    kept_reindent style unit lines start stop
  have bodies : ∀ row, Line.body (settled.getD row []) = Line.body (lines.getD row []) := by
    intro row
    rw [kept.getD_body, Document.getD_atLeastOne]
  have same : filled settled = filled lines := filled_reindent style unit lines start stop
  have reached : ∀ row : Nat, row < settled.length → InRange start stop row →
      settled.getD row [] = settledLine style unit settled row := by
    intro row bound within
    rw [kept.length] at bound
    exact getD_reindent style unit (mem_rowsBetween.mpr ⟨bound, within⟩)
  constructor
  · exact kept.length
  · intro row past
    rw [kept.outside row fun mem => past (mem_rowsBetween.mp mem).2, Document.getD_atLeastOne]
  · intro row within blank
    rw [← same, filled, Bool.not_eq_false'] at blank
    by_cases bound : row < settled.length
    · rw [reached row bound within, settledLine, if_pos blank]
    · simp [List.getD_eq_getElem?_getD, bound]
  · intro row within nonempty
    rw [← same] at nonempty
    rw [reached row (bound_of_filled nonempty) within, settledLine_of_filled style unit nonempty,
      Line.moveTo, Line.moveTo, bodies]

/-- Rows in whole units are at their column with whole units in front. -/
theorem Resettled.exists_units {column : Nat → Int} {settled : List Line}
    (resettled : Resettled column start stop lines settled) (stable : Stable style unit settled)
    (pos : 0 < unit) (within : InRange start stop row) (nonempty : filled lines row = true) :
    ∃ k ≤ row, settled.getD row [] = Line.moveTo (k * unit) (lines.getD row []) := by
  obtain ⟨k, le, units⟩ := stable.exists_units pos row
  have stands := resettled.inside row within nonempty
  have width := congrArg Line.indentation stands
  rw [Line.indentation_moveTo] at width
  have same : (column row).toNat = (k * unit).toNat := by omega
  refine ⟨k, le, ?_⟩
  rw [stands, Line.moveTo, Line.moveTo, Margin.ofColumn, Margin.ofColumn, same]

/-- A pass is refused just for a row that is too wide. -/
theorem reindentBounded_in_range (style : Style) (unit : Int) (lines : List Line) (start : Int)
    (stop : Option Int) :
    let settled := reindent style unit lines start stop
    let ran := reindentBounded style unit lines start stop
    let tooWide := fun row : Nat => InRange start stop row ∧ TooWide style unit settled row
    ((∀ row, ¬tooWide row) → ran = .ok settled) ∧
      ((∃ row, tooWide row) → ∃ fault, fault.IsLimit ∧ ran = .error fault) := by
  intro settled ran tooWide
  obtain ⟨fits, refused⟩ := reindentBounded_cases style unit lines start stop
  constructor
  · intro free
    apply fits
    intro row mem wide
    exact free row ⟨(mem_rowsBetween.mp mem).2, wide⟩
  · rintro ⟨row, within, wide⟩
    have bound := bound_of_filled wide.1
    rw [(resettled_reindent style unit lines start stop).length] at bound
    exact refused ⟨row, mem_rowsBetween.mpr ⟨bound, within⟩, wide⟩

theorem reindent_of_whole (style : Style) (unit : Int)
    (whole : ∀ row < (Document.atLeastOne lines).length, InRange start stop row) :
    reindent style unit lines start stop = reindent style unit lines 0 none := by
  rw [reindent_eq_foldl, reindent_eq_foldl, rowsBetween_of_whole whole]

end Pass

/-- A pass changes leading blanks in its range only: a blank row comes out empty and any other as
its content at the column for it. It is refused just if memory does not hold a margin for one of
these columns. Over all rows no column is further than one unit below zero, and every row that is
not blank comes out with whole units in front, no more than there are rows above it. -/
theorem reindent_on_grid (style : Style) {unit : Int} (pos : 0 < unit) (lines : List Line)
    (start : Int) (stop : Option Int) :
    let settled := reindent style unit lines start stop
    let ran := reindentBounded style unit lines start stop
    let column := fun row : Nat => (decideRow style settled unit row).column
    let tooWide := fun row : Nat =>
      InRange start stop row ∧ filled lines row = true ∧ Margin.capacity < column row
    let count := (Document.atLeastOne lines).length
    Resettled column start stop lines settled ∧
      ((∀ row, ¬tooWide row) → ran = .ok settled) ∧
      ((∃ row, tooWide row) → ∃ fault, fault.IsLimit ∧ ran = .error fault) ∧
      ((∀ row < count, InRange start stop row) →
        (∀ c ∈ columns style unit lines, -unit ≤ c) ∧
        (∀ row, filled lines row = true →
          ∃ k ≤ row, settled.getD row [] = Line.moveTo (k * unit) (lines.getD row [])) ∧
        (((count : Int) - 1) * unit ≤ Margin.capacity → ran = .ok settled)) := by
  intro settled ran column tooWide count
  have nonneg : 0 ≤ unit := Int.le_of_lt pos
  have kept : Resettled column start stop lines settled :=
    resettled_reindent style unit lines start stop
  obtain ⟨fits, refused⟩ := reindentBounded_in_range style unit lines start stop
  simp only [TooWide, filled_reindent] at fits refused
  refine ⟨kept, fits, refused, fun whole => ?_⟩
  have stable : Stable style unit settled := by
    have all : settled = reindent style unit lines 0 none := reindent_of_whole style unit whole
    rw [all]
    exact stable_reindent style unit lines
  have bound : ∀ row, filled lines row = true → row < count := by
    intro row nonempty
    rw [← filled_atLeastOne lines] at nonempty
    exact bound_of_filled nonempty
  refine ⟨?_, ?_, ?_⟩
  · intro c mem
    obtain ⟨row, -, -, rfl⟩ := mem_columns_iff.mp mem
    exact (fromAbove_decideRow style _ unit row).neg_unit_le nonneg
  · intro row nonempty
    exact kept.exists_units stable pos (whole row (bound row nonempty)) nonempty
  · intro room
    apply fits
    rintro row ⟨-, nonempty, wide⟩
    have last := bound row nonempty
    apply Int.not_lt.mpr _ wide
    calc
      column row ≤ row * unit := stable.column_le nonneg row
      _ ≤ ((count : Int) - 1) * unit := Int.mul_le_mul_of_nonneg_right (by omega) nonneg
      _ ≤ Margin.capacity := room

/-- A closing brace takes a unit off the blank row above it, and what is below zero is not written.
-/
theorem reindent_on_grid_below_blank_row :
    let lines := ["a \x7b", "\t b", " ", "  \x7d"].map String.toList
    let settled := ["a \x7b", "    b", "", "\x7d"].map String.toList
    (0 : Int) < 4 ∧ (∀ row < (Document.atLeastOne lines).length, InRange 0 none row) ∧
      filled lines 1 = true ∧ -4 ∈ columns .faithful 4 lines ∧
      reindentBounded .faithful 4 lines 0 none = .ok settled ∧
      ∃ k : Nat, k ≤ 1 ∧ settled.getD 1 [] = Line.moveTo (k * 4) (lines.getD 1 []) := by
  intro lines settled
  have pos : (0 : Int) < 4 := by decide
  have whole : ∀ row < (Document.atLeastOne lines).length, InRange 0 none row :=
    fun row _ => ⟨Int.natCast_nonneg row, nofun⟩
  have nonempty : filled lines 1 = true := by decide +kernel
  have result : reindent .faithful 4 lines 0 none = settled := by decide +kernel
  obtain ⟨-, -, -, all⟩ := reindent_on_grid .faithful pos lines 0 none
  rw [result] at all
  obtain ⟨-, grid, room⟩ := all whole
  exact ⟨pos, whole, nonempty, by decide +kernel, room (by decide +kernel), grid 1 nonempty⟩

/-- No memory holds a margin of 10 ^ 20 spaces, so a pass can come to no result. -/
theorem exists_reindent_refused :
    ¬∀ (style : Style) (unit : Int) (lines : List Line) (start : Int) (stop : Option Int),
      0 < unit → ∃ result, reindentBounded style unit lines start stop = .ok result ∧
        result.length = (Document.atLeastOne lines).length := by
  intro all
  let unit : Int := 100000000000000000000
  obtain ⟨result, run, -⟩ := all .faithful unit [['\x7b'], ['x']] 0 none (by decide)
  have refused : (reindentBounded .faithful unit [['\x7b'], ['x']] 0 none).toOption = none := by
    decide +kernel
  rw [run] at refused
  cases refused

end LinkerScriptEditor.Indent
