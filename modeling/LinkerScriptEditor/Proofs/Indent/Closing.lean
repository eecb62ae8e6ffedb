import LinkerScriptEditor.Proofs.Indent.Finding
import LinkerScriptEditor.Proofs.Indent.Units

/-!
# Columns below zero

Without comments a column is below zero just where a closing brace takes a unit off a row that has
no indentation. Balanced braces do not keep that from happening: the row after a block that is
closed at column zero is such a row.
-/

namespace LinkerScriptEditor.Indent

variable {style : Style} {unit : Int} {lines : List Line} {row : Nat}

theorem plain_atLeastOne (plain : Plain lines) : Plain (Document.atLeastOne lines) := by
  cases lines with
  | nil => decide
  | cons line rest => exact plain

/-- The nearest row above that holds a brace holds a closing one. -/
structure ClosedAbove (lines : List Line) (row anchor : Nat) : Prop where
  above : anchor < row
  closing : '}' ∈ lines.getD anchor []
  between : ∀ r, anchor < r → r < row → '{' ∉ lines.getD r [] ∧ '}' ∉ lines.getD r []

/-- The row from which a closing brace counts for a row: the one right above a row that begins with
a closing brace, and for a row that begins with no brace the nearest above that holds a brace, if
it holds a closing one. -/
def ClosedFrom (lines : List Line) (row anchor : Nat) : Prop :=
  (row = anchor + 1 ∧ (Line.body (lines.getD row [])).head? = some '}') ∨
    ((∀ c ∈ (Line.body (lines.getD row [])).head?, c ≠ '{' ∧ c ≠ '}') ∧
      ClosedAbove lines row anchor)

theorem leadingRule?_of_opening {text : Line} (leads : (Line.body text).head? = some '{') :
    leadingRule? text = some ⟨'{', .openBrace, 0⟩ := by
  rw [leadingRule?, leads]
  rfl

theorem leadingRule?_of_closing {text : Line} (leads : (Line.body text).head? = some '}') :
    leadingRule? text = some ⟨'}', .closeBrace, -1⟩ := by
  rw [leadingRule?, leads]
  rfl

theorem leadingRule?_of_other {text : Line}
    (other : ∀ c ∈ (Line.body text).head?, c ≠ '{' ∧ c ≠ '}') : leadingRule? text = none := by
  rw [leadingRule?, leadingRules, List.find?_eq_none]
  intro rule mem
  rw [beq_iff_eq]
  intro leads
  obtain ⟨opening, closing⟩ := other _ leads
  simp only [List.mem_cons, List.not_mem_nil, or_false] at mem
  rcases mem with rfl | rfl
  · exact opening rfl
  · exact closing rfl

theorem scanRule?_of_closing {text : Line} (closing : '}' ∈ text) :
    scanRule? text = some ⟨'}', .scanClose, -1⟩ := by
  rw [scanRule?, scanRules, List.find?_cons_of_pos]
  exact List.contains_iff_mem.mpr closing

theorem scanRule?_of_opening {text : Line} (closing : '}' ∉ text) (opening : '{' ∈ text) :
    scanRule? text = some ⟨'{', .scanOpen, 1⟩ := by
  rw [scanRule?, scanRules, List.find?_cons_of_neg, List.find?_cons_of_pos]
  · exact List.contains_iff_mem.mpr opening
  · simpa using closing

theorem scanRule?_of_neither {text : Line} (closing : '}' ∉ text) (opening : '{' ∉ text) :
    scanRule? text = none := by
  rw [scanRule?, scanRules, List.find?_cons_of_neg, List.find?_cons_of_neg, List.find?_nil]
  · simpa using opening
  · simpa using closing

theorem column_decide (rule : BraceRule) (lines : List Line) (unit : Int) (anchor : Nat) :
    (rule.decide lines.toArray unit anchor).column =
      Line.indentation (lines.getD anchor []) + rule.units * unit := by
  rw [BraceRule.decide, Tracker.getD_toArray]

section

variable (plain : Plain lines)
include plain

theorem run_scanUp_succ_of_plain (style : Style) (unit : Int) (anchor : Nat) :
    Id.run (scanUp style (.pure lines) lines.toArray unit (anchor + 1)) =
      match scanRule? (lines.getD anchor []) with
      | some rule => rule.decide lines.toArray unit anchor
      | none => Id.run (scanUp style (.pure lines) lines.toArray unit anchor) := by
  have step := run_scanUp_succ_found style lines unit anchor
  rw [found?_of_plain plain] at step
  exact step

theorem decideRow_succ_of_plain (style : Style) (unit : Int) (above : Nat) :
    decideRow style lines unit (above + 1) =
      match leadingRule? (lines.getD (above + 1) []) with
      | some rule => rule.decide lines.toArray unit above
      | none => Id.run (scanUp style (.pure lines) lines.toArray unit (above + 1)) := by
  have step := decideRow_succ_leading style lines unit above
  rw [leading?_of_plain plain] at step
  exact step

/-- The walk upward ends at the nearest row with a brace, and takes off a unit if it is closing. -/
theorem column_scanUp_of_closedAbove {anchor : Nat} (closed : ClosedAbove lines row anchor) :
    (Id.run (scanUp style (.pure lines) lines.toArray unit row)).column =
      Line.indentation (lines.getD anchor []) - unit := by
  induction row with
  | zero => cases closed.above
  | succ row ih =>
      rw [run_scanUp_succ_of_plain plain]
      rcases Nat.lt_succ_iff_lt_or_eq.mp closed.above with above | rfl
      · obtain ⟨opening, closing⟩ := closed.between row above (Nat.lt_succ_self row)
        rw [scanRule?_of_neither closing opening]
        exact ih ⟨above, closed.closing, fun r after lt => closed.between r after (by omega)⟩
      · rw [scanRule?_of_closing closed.closing, column_decide]
        dsimp only
        omega

theorem column_scanUp_nonneg (nonneg : 0 ≤ unit)
    (free : ∀ anchor, ¬ClosedAbove lines row anchor) :
    0 ≤ (Id.run (scanUp style (.pure lines) lines.toArray unit row)).column := by
  induction row with
  | zero => exact Int.le_refl 0
  | succ row ih =>
      rw [run_scanUp_succ_of_plain plain]
      have closing : '}' ∉ lines.getD row [] := by
        intro closing
        exact free row ⟨Nat.lt_succ_self row, closing, fun r after lt => by omega⟩
      by_cases opening : '{' ∈ lines.getD row []
      · rw [scanRule?_of_opening closing opening, column_decide]
        dsimp only
        omega
      · rw [scanRule?_of_neither closing opening]
        apply ih
        intro anchor closed
        refine free anchor ⟨by have := closed.above; omega, closed.closing, fun r after lt => ?_⟩
        by_cases last : r = row
        · rw [last]
          exact ⟨opening, closing⟩
        · exact closed.between r after (by omega)

theorem column_of_closedFrom {anchor : Nat} (closed : ClosedFrom lines row anchor) :
    (decideRow style lines unit row).column = Line.indentation (lines.getD anchor []) - unit := by
  rcases closed with ⟨rfl, leads⟩ | ⟨other, closed⟩
  · rw [decideRow_succ_of_plain plain, leadingRule?_of_closing leads, column_decide]
    dsimp only
    omega
  · obtain ⟨above, rfl⟩ := Nat.exists_eq_succ_of_ne_zero (Nat.ne_zero_of_lt closed.above)
    rw [decideRow_succ_of_plain plain, leadingRule?_of_other other]
    exact column_scanUp_of_closedAbove plain closed

theorem column_nonneg_of_not_closedFrom (style : Style) (nonneg : 0 ≤ unit)
    (free : ∀ anchor, ¬ClosedFrom lines row anchor) :
    0 ≤ (decideRow style lines unit row).column := by
  cases row with
  | zero => exact Int.le_refl 0
  | succ above =>
      rw [decideRow_succ_of_plain plain]
      cases leads : (Line.body (lines.getD (above + 1) [])).head? with
      | none =>
          have other : ∀ c ∈ (Line.body (lines.getD (above + 1) [])).head?, c ≠ '{' ∧ c ≠ '}' := by
            rw [leads]
            exact nofun
          rw [leadingRule?_of_other other]
          exact column_scanUp_nonneg plain nonneg fun anchor closed =>
            free anchor (.inr ⟨other, closed⟩)
      | some c =>
          by_cases closing : c = '}'
          · exact absurd (.inl ⟨rfl, closing ▸ leads⟩) (free above)
          · by_cases opening : c = '{'
            · rw [leadingRule?_of_opening (opening ▸ leads), column_decide]
              dsimp only
              omega
            · have other : ∀ c ∈ (Line.body (lines.getD (above + 1) [])).head?,
                  c ≠ '{' ∧ c ≠ '}' := by
                rw [leads]
                rintro c ⟨⟩
                exact ⟨opening, closing⟩
              rw [leadingRule?_of_other other]
              exact column_scanUp_nonneg plain nonneg fun anchor closed =>
                free anchor (.inr ⟨other, closed⟩)

/-- A column is a unit below zero just where a closing brace counts from a row without
indentation. -/
theorem column_eq_neg_iff (pos : 0 < unit) :
    (decideRow style lines unit row).column = -unit ↔
      ∃ anchor, ClosedFrom lines row anchor ∧ Line.indentation (lines.getD anchor []) = 0 := by
  constructor
  · intro below
    by_cases free : ∀ anchor, ¬ClosedFrom lines row anchor
    · have := column_nonneg_of_not_closedFrom plain style (Int.le_of_lt pos) free
      omega
    · obtain ⟨anchor, closed⟩ := Classical.not_forall_not.mp free
      rw [column_of_closedFrom plain closed] at below
      exact ⟨anchor, closed, by omega⟩
  · rintro ⟨anchor, closed, margin⟩
    rw [column_of_closedFrom plain closed, margin]
    omega

end

/-- Without comments all columns are whole units. One that is below zero is a unit below, and it is
there just where a closing brace counts from a row that ends up without indentation. -/
theorem columns_of_plain (style : Style) {unit : Int} (pos : 0 < unit) {lines : List Line}
    (plain : Plain lines) :
    let settled := reindent style unit lines 0 none
    let column := fun row => (decideRow style settled unit row).column
    columns style unit lines =
        ((List.range (Document.atLeastOne lines).length).filter
          (filled (Document.atLeastOne lines))).map column ∧
      ∀ row, unit ∣ column row ∧ (column row = -unit ∨ 0 ≤ column row) ∧
        (column row = -unit ↔
          ∃ anchor, ClosedFrom settled row anchor ∧
            Line.indentation (settled.getD anchor []) = 0) := by
  intro settled column
  have bodies := (kept_reindent style unit lines 0 none).bodies
  have plainly : Plain settled := Comment.plain_of_map_body bodies (plain_atLeastOne plain)
  refine ⟨columns_eq_map style unit lines, fun row => ⟨?_, ?_, ?_⟩⟩
  · exact (stable_reindent style unit lines).dvd_column row
  · apply eq_neg_or_nonneg ((stable_reindent style unit lines).dvd_column row)
    exact (fromAbove_decideRow style settled unit row).neg_unit_le (Int.le_of_lt pos)
  · exact column_eq_neg_iff plainly pos

theorem columns_of_closed_block :
    let script : List Line := [['{'], ['a'], ['}'], ['b']]
    let settled := reindent .faithful 4 script 0 none
    columns .faithful 4 script = [0, 4, 0, -4] ∧
      ∃ anchor, ClosedFrom settled 3 anchor ∧ Line.indentation (settled.getD anchor []) = 0 := by
  intro script settled
  have pos : (0 : Int) < 4 := by decide
  have plain : Plain script := by decide
  have below : (decideRow .faithful settled 4 3).column = -4 := by decide
  have spec := columns_of_plain .faithful pos plain
  exact ⟨by decide, (spec.2 3).2.2.mp below⟩

/-- As a text is read no brace is closed that has not been opened, and in the end all are closed. -/
structure Balanced (text : List Char) : Prop where
  before : ∀ n ≤ text.length, (text.take n).count '}' ≤ (text.take n).count '{'
  total : text.count '}' = text.count '{'

/-- Balanced braces do not keep all columns from being below zero. -/
theorem exists_neg_column_of_balanced :
    ¬∀ (style : Style) (unit : Int) (lines : List Line), 0 < unit → Plain lines →
      Balanced lines.flatten → ∀ column ∈ columns style unit lines, 0 ≤ column ∧ unit ∣ column := by
  intro all
  let script : List Line := [['{'], ['a'], ['}'], ['b']]
  have plain : Plain script := by decide
  have balanced : Balanced script.flatten := ⟨by decide, by decide⟩
  have obtained : -4 ∈ columns .faithful 4 script := by decide
  have nonneg := (all .faithful 4 script (by decide) plain balanced (-4) obtained).1
  exact absurd nonneg (by decide)

end LinkerScriptEditor.Indent
