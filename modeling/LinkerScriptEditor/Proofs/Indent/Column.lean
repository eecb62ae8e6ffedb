import LinkerScriptEditor.Indent
import LinkerScriptEditor.Margin
import LinkerScriptEditor.Proofs.Comment.Tracking

/-!
# Columns of decisions

A decision puts its row at column zero, or takes the indentation of a row above and moves it by at
most one unit. The braces decide which row that is, but bounds on columns do not depend on it.
-/

namespace LinkerScriptEditor

namespace Line

theorem indentation_spaces_append_body (width : Nat) (line : Line) :
    indentation (spaces width ++ body line) = width := by
  have blanks : ∀ c ∈ spaces width, isBlank c = true := by
    intro c mem
    rw [List.eq_of_mem_replicate mem]
    rfl
  have rest : (body line).takeWhile isBlank = [] := by
    have head := List.head?_dropWhile_not isBlank line
    rw [body]
    cases dropped : line.dropWhile isBlank with
    | nil => rfl
    | cons c rest =>
        rw [dropped] at head
        exact List.takeWhile_cons_of_neg (Bool.eq_false_iff.mp (by simpa using head))
  rw [indentation, List.takeWhile_append_of_pos blanks, rest, List.append_nil, spaces,
    List.length_replicate]

/-- The line with the margin for a column in the place of its blanks. -/
def moveTo (column : Int) (line : Line) : Line := Margin.ofColumn column ++ body line

theorem indentation_moveTo (column : Int) (line : Line) :
    indentation (moveTo column line) = column.toNat :=
  indentation_spaces_append_body column.toNat line

theorem length_moveTo (column : Int) (line : Line) :
    (moveTo column line).length = column.toNat + (body line).length := by
  rw [moveTo, Margin.ofColumn, spaces, List.length_append, List.length_replicate]

end Line

namespace Indent

/-- The columns that rows above a row leave to it. -/
inductive FromAbove (rows : Array Line) (unit : Int) (row : Nat) : Int → Prop
  | margin : FromAbove rows unit row 0
  | anchored {anchor : Nat} {rule : BraceRule} (above : anchor < row)
      (brace : rule ∈ leadingRules ++ scanRules) :
      FromAbove rows unit row (rule.decide rows unit anchor).column

variable {rows : Array Line} {unit : Int} {row : Nat} {column : Int}

theorem FromAbove.mono (fromAbove : FromAbove rows unit row column) {later : Nat}
    (le : row ≤ later) : FromAbove rows unit later column := by
  cases fromAbove with
  | margin => exact .margin
  | anchored above brace => exact .anchored (Nat.lt_of_lt_of_le above le) brace

theorem units_mul_le {rule : BraceRule} (brace : rule ∈ leadingRules ++ scanRules)
    (nonneg : 0 ≤ unit) : -unit ≤ rule.units * unit ∧ rule.units * unit ≤ unit := by
  have units : rule.units = 0 ∨ rule.units = -1 ∨ rule.units = 1 := by
    simp only [leadingRules, scanRules, List.cons_append, List.nil_append, List.mem_cons,
      List.not_mem_nil, or_false] at brace
    rcases brace with rfl | rfl | rfl | rfl <;> simp
  rcases units with same | less | more
  · rw [same]
    omega
  · rw [less]
    omega
  · rw [more]
    omega

/-- A unit more than the widest row above bounds the column on both sides. -/
theorem FromAbove.bounds (fromAbove : FromAbove rows unit row column) (nonneg : 0 ≤ unit)
    {width : Int} (wide : 0 ≤ width)
    (above : ∀ anchor < row, (Line.indentation (rows.getD anchor []) : Int) + unit ≤ width) :
    -width ≤ column ∧ column ≤ width := by
  cases fromAbove with
  | margin =>
      constructor
      · exact Int.neg_nonpos_of_nonneg wide
      · exact wide
  | @anchored anchor rule lt brace =>
      have bound := above anchor lt
      obtain ⟨less, more⟩ := units_mul_le brace nonneg
      change -width ≤ (Line.indentation (rows.getD anchor []) : Int) + rule.units * unit ∧
        (Line.indentation (rows.getD anchor []) : Int) + rule.units * unit ≤ width
      omega

theorem mem_of_leadingRule? {text : Line} {rule : BraceRule}
    (found : leadingRule? text = some rule) : rule ∈ leadingRules ++ scanRules :=
  List.mem_append_left _ (List.mem_of_find?_eq_some found)

theorem mem_of_scanRule? {text : Line} {rule : BraceRule} (found : scanRule? text = some rule) :
    rule ∈ leadingRules ++ scanRules :=
  List.mem_append_right _ (List.mem_of_find?_eq_some found)

section Tracked

variable (key : SnapshotKey) (style : Style) (rows : Array Line) (unit : Int)

theorem run_bind_tracker {α β : Type} (x : StateM Tracker α) (f : α → StateM Tracker β)
    (t : Tracker) : (x >>= f).run t = (f (x.run t).1).run (x.run t).2 := rfl

theorem fromAbove_scanUp (row : Nat) (t : Tracker) :
    FromAbove rows unit row ((scanUp style (.tracked key rows) rows unit row).run t).1.column := by
  -- the walk goes on further up with whatever tracker the questions have left
  induction row generalizing t with
  | zero => exact .margin
  | succ anchor ih =>
      have further : ∀ t, FromAbove rows unit (anchor + 1)
          ((scanUp style (.tracked key rows) rows unit anchor).run t).1.column :=
        fun t => (ih t).mono (Nat.le_succ anchor)
      rw [scanUp, run_bind_tracker]
      cases ((skips style (.tracked key rows) rows anchor).run t).1 with
      | true => exact further _
      | false =>
          rw [if_neg Bool.false_ne_true, run_bind_tracker]
          cases found : scanRule? ((textOf style (.tracked key rows) rows anchor).run
              ((skips style (.tracked key rows) rows anchor).run t).2).1 with
          | none => exact further _
          | some rule => exact .anchored (Nat.lt_succ_self anchor) (mem_of_scanRule? found)

theorem fromAbove_decideWith (row : Nat) (t : Tracker) :
    FromAbove rows unit row
      ((decideWith style (.tracked key rows) rows unit row).run t).1.column := by
  cases row with
  | zero => exact .margin
  | succ above =>
      rw [decideWith, run_bind_tracker]
      cases found : leadingRule?
          ((textOf style (.tracked key rows) rows (above + 1)).run t).1 with
      | none => exact fromAbove_scanUp key style rows unit (above + 1) _
      | some rule => exact .anchored (Nat.lt_succ_self above) (mem_of_leadingRule? found)

end Tracked

/-- A fresh tracker decides as if every comment were found afresh. -/
theorem fromAbove_decideRow (style : Style) (lines : List Line) (unit : Int) (row : Nat) :
    FromAbove lines.toArray unit row (decideRow style lines unit row).column := by
  have fresh := Tracker.coherent_fresh ⟨0, 0⟩ lines
  obtain ⟨same, -, -⟩ := answers_decideWith ⟨0, 0⟩ lines style unit row .fresh fresh
  rw [← same]
  exact fromAbove_decideWith _ style _ unit row .fresh

end Indent

end LinkerScriptEditor
