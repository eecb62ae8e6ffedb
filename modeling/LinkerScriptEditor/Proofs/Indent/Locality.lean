import LinkerScriptEditor.Proofs.Comment.Blanks

/-!
# What a decision looks at

A decision for a row looks at the rows above it, and at the row itself without its leading blanks.
Nothing below the row and no former margin of the row has a part in it.
-/

namespace LinkerScriptEditor.Indent

/-- The lists have the same rows above a row, and there they differ in leading blanks at most. -/
structure Alike (row : Nat) (a b : List Line) : Prop where
  above : ∀ r < row, a.getD r [] = b.getD r []
  own : Line.body (a.getD row []) = Line.body (b.getD row [])

variable {a b : List Line} {row : Nat}

theorem skips_eq_of_above (style : Style) (above : ∀ r < row + 1, a.getD r [] = b.getD r []) :
    Id.run (skips style (.pure a) a.toArray row) =
      Id.run (skips style (.pure b) b.toArray row) := by
  have state := Comment.startsInside_eq_of_above fun r lt => above r (Nat.lt_succ_of_lt lt)
  have line := above row (Nat.lt_succ_self row)
  cases style with
  | faithful =>
      change Comment.isInside a ⟨row, Line.indentation (a.toArray.getD row [])⟩ =
        Comment.isInside b ⟨row, Line.indentation (b.toArray.getD row [])⟩
      simp only [Comment.isInside, Tracker.getD_toArray, state, line]
  | commentAware => rfl

theorem textOf_eq_of_above (style : Style) (above : ∀ r < row + 1, a.getD r [] = b.getD r []) :
    Id.run (textOf style (.pure a) a.toArray row) =
      Id.run (textOf style (.pure b) b.toArray row) := by
  have state := Comment.startsInside_eq_of_above fun r lt => above r (Nat.lt_succ_of_lt lt)
  have line := above row (Nat.lt_succ_self row)
  cases style with
  | faithful =>
      change a.toArray.getD row [] = b.toArray.getD row []
      rw [Tracker.getD_toArray, Tracker.getD_toArray, line]
  | commentAware =>
      change Comment.visible a row = Comment.visible b row
      rw [Comment.visible, Comment.visible, state, line]

theorem BraceRule.decide_eq_of_above (rule : BraceRule) (unit : Int)
    (line : a.getD row [] = b.getD row []) :
    rule.decide a.toArray unit row = rule.decide b.toArray unit row := by
  rw [BraceRule.decide, BraceRule.decide, Tracker.getD_toArray, Tracker.getD_toArray, line]

/-- The walk upward looks at the rows above only. -/
theorem scanUp_eq_of_above (style : Style) (unit : Int)
    (above : ∀ r < row, a.getD r [] = b.getD r []) :
    Id.run (scanUp style (.pure a) a.toArray unit row) =
      Id.run (scanUp style (.pure b) b.toArray unit row) := by
  induction row with
  | zero => rfl
  | succ anchor ih =>
      have further := ih fun r lt => above r (Nat.lt_succ_of_lt lt)
      rw [run_scanUp_succ, run_scanUp_succ, skips_eq_of_above style above,
        textOf_eq_of_above style above, further]
      cases scanRule? (Id.run (textOf style (.pure b) b.toArray anchor)) with
      | none => rfl
      | some rule =>
          dsimp only
          rw [rule.decide_eq_of_above unit (above anchor (Nat.lt_succ_self anchor))]

theorem leadingRule?_eq_of_body {s t : Line} (same : Line.body s = Line.body t) :
    leadingRule? s = leadingRule? t := by
  rw [leadingRule?, leadingRule?, same]

theorem Alike.leadingRule?_textOf (alike : Alike row a b) (style : Style) :
    leadingRule? (Id.run (textOf style (.pure a) a.toArray row)) =
      leadingRule? (Id.run (textOf style (.pure b) b.toArray row)) := by
  apply leadingRule?_eq_of_body
  cases style with
  | faithful =>
      change Line.body (a.toArray.getD row []) = Line.body (b.toArray.getD row [])
      rw [Tracker.getD_toArray, Tracker.getD_toArray]
      exact alike.own
  | commentAware =>
      change Line.body (Comment.visible a row) = Line.body (Comment.visible b row)
      rw [Comment.visible, Comment.visible, Comment.startsInside_eq_of_above alike.above,
        ← Comment.body_blankOut_body, alike.own, Comment.body_blankOut_body]

/-- Lists that are alike at a row lead to the same decision for it. -/
theorem Alike.decideRow_eq (alike : Alike row a b) (style : Style) (unit : Int) :
    decideRow style a unit row = decideRow style b unit row := by
  cases row with
  | zero => rfl
  | succ above =>
      rw [decideRow_succ, decideRow_succ, alike.leadingRule?_textOf,
        scanUp_eq_of_above style unit alike.above]
      cases leadingRule? (Id.run (textOf style (.pure b) b.toArray (above + 1))) with
      | none => rfl
      | some rule =>
          dsimp only
          rw [rule.decide_eq_of_above unit (alike.above above (Nat.lt_succ_self above))]

end LinkerScriptEditor.Indent
