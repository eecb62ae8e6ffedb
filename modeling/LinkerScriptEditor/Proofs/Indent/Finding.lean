import LinkerScriptEditor.Proofs.Comment.Absence
import LinkerScriptEditor.Proofs.Indent.Column

/-!
# What a decision finds

A decision hangs on what its tests find: the brace that the row begins with, or the nearest brace
that the walk upward comes to. Where two styles find the same on two documents they choose the same
rule and the same row, and each takes the column from its own document.
-/

namespace LinkerScriptEditor

namespace Indent

/-- The units that a rule adds to the indentation of its row. -/
def Rule.units (rule : Rule) : Int :=
  ((leadingRules ++ scanRules).find? (·.rule == rule)).elim 0 BraceRule.units

/-- The decision by the same rule for the same row, with the column that they lead to among other
lines. -/
def Decision.among (lines : List Line) (unit : Int) (decision : Decision) : Decision :=
  { decision with
    column := decision.anchor.elim 0 fun anchor =>
      Line.indentation (lines.getD anchor []) + decision.rule.units * unit }

/-- The brace that a row is seen to begin with. -/
def leading? (style : Style) (lines : List Line) (row : Nat) : Option BraceRule :=
  leadingRule? (Id.run (textOf style (.pure lines) lines.toArray row))

/-- The brace that the walk upward sees on a row, if it does not skip the row. -/
def found? (style : Style) (lines : List Line) (row : Nat) : Option BraceRule :=
  if Id.run (skips style (.pure lines) lines.toArray row) then none
  else scanRule? (Id.run (textOf style (.pure lines) lines.toArray row))

section Views

variable (lines : List Line) (row : Nat)

theorem leading?_faithful :
    leading? .faithful lines row = leadingRule? (lines.getD row []) :=
  congrArg leadingRule? (Tracker.getD_toArray lines row)

theorem leading?_commentAware :
    leading? .commentAware lines row = leadingRule? (Comment.visible lines row) := rfl

theorem found?_faithful :
    found? .faithful lines row =
      if Comment.isInside lines ⟨row, Line.indentation (lines.getD row [])⟩ then none
      else scanRule? (lines.getD row []) := by
  rw [← Tracker.getD_toArray lines row]
  rfl

theorem found?_commentAware :
    found? .commentAware lines row = scanRule? (Comment.visible lines row) := rfl

end Views

section Plain

variable {lines : List Line} (plain : Plain lines) (style : Style) (row : Nat)
include plain

/-- Where there is no comment, both styles see the line as it is. -/
theorem leading?_of_plain : leading? style lines row = leadingRule? (lines.getD row []) := by
  cases style with
  | faithful => exact leading?_faithful lines row
  | commentAware => rw [leading?_commentAware, Comment.visible_of_plain plain]

/-- Where there is no comment, no row is skipped. -/
theorem found?_of_plain : found? style lines row = scanRule? (lines.getD row []) := by
  cases style with
  | faithful =>
      rw [found?_faithful, Comment.isInside_of_plain plain, if_neg Bool.false_ne_true]
  | commentAware => rw [found?_commentAware, Comment.visible_of_plain plain]

end Plain

variable {s t style : Style} {a b lines : List Line} {unit : Int} {row : Nat}

theorem mem_of_found? {rule : BraceRule} (found : found? style lines row = some rule) :
    rule ∈ leadingRules ++ scanRules := by
  rw [found?] at found
  split at found
  · cases found
  · exact mem_of_scanRule? found

theorem run_scanUp_succ_found (style : Style) (lines : List Line) (unit : Int) (anchor : Nat) :
    Id.run (scanUp style (.pure lines) lines.toArray unit (anchor + 1)) =
      match found? style lines anchor with
      | some rule => rule.decide lines.toArray unit anchor
      | none => Id.run (scanUp style (.pure lines) lines.toArray unit anchor) := by
  rw [run_scanUp_succ, found?]
  cases Id.run (skips style (.pure lines) lines.toArray anchor) with
  | true => rfl
  | false => rfl

theorem decideRow_succ_leading (style : Style) (lines : List Line) (unit : Int) (above : Nat) :
    decideRow style lines unit (above + 1) =
      match leading? style lines (above + 1) with
      | some rule => rule.decide lines.toArray unit above
      | none => Id.run (scanUp style (.pure lines) lines.toArray unit (above + 1)) :=
  decideRow_succ style lines unit above

theorem units_rule {rule : BraceRule} (brace : rule ∈ leadingRules ++ scanRules) :
    rule.rule.units = rule.units := by
  simp only [leadingRules, scanRules, List.cons_append, List.nil_append, List.mem_cons,
    List.not_mem_nil, or_false] at brace
  rcases brace with rfl | rfl | rfl | rfl <;> rfl

theorem among_decide {rule : BraceRule} (brace : rule ∈ leadingRules ++ scanRules)
    (rows : Array Line) (anchor : Nat) :
    (rule.decide rows unit anchor).among lines unit = rule.decide lines.toArray unit anchor := by
  simp [Decision.among, BraceRule.decide, units_rule brace]

/-- Walks that see the same on every row come to the same row by the same rule. -/
theorem scanUp_simulates (finds : ∀ anchor < row, found? s a anchor = found? t b anchor) :
    Id.run (scanUp s (.pure a) a.toArray unit row) =
      (Id.run (scanUp t (.pure b) b.toArray unit row)).among a unit := by
  induction row with
  | zero => rfl
  | succ anchor ih =>
      rw [run_scanUp_succ_found, run_scanUp_succ_found, finds anchor (Nat.lt_succ_self anchor)]
      cases found : found? t b anchor with
      | none => exact ih fun r lt => finds r (Nat.lt_succ_of_lt lt)
      | some rule => exact (among_decide (mem_of_found? found) _ anchor).symm

theorem decideRow_simulates (leads : leading? s a row = leading? t b row)
    (finds : ∀ anchor < row, found? s a anchor = found? t b anchor) :
    decideRow s a unit row = (decideRow t b unit row).among a unit := by
  cases row with
  | zero => rfl
  | succ above =>
      rw [decideRow_succ_leading, decideRow_succ_leading, leads]
      cases found : leading? t b (above + 1) with
      | none => exact scanUp_simulates finds
      | some rule => exact (among_decide (mem_of_leadingRule? found) _ above).symm

/-- The column of a decision is the one that its rule and its row lead to. -/
theorem among_decideRow (style : Style) (lines : List Line) (unit : Int) (row : Nat) :
    (decideRow style lines unit row).among lines unit = decideRow style lines unit row :=
  (decideRow_simulates rfl fun _ _ => rfl).symm

/-- Styles that find the same on a document lead to the same decisions for it. -/
theorem decideRow_congr (leads : leading? s lines row = leading? t lines row)
    (finds : ∀ anchor < row, found? s lines anchor = found? t lines anchor) :
    decideRow s lines unit row = decideRow t lines unit row :=
  (decideRow_simulates leads finds).trans (among_decideRow t lines unit row)

end Indent

namespace Snapshot

/-- The decision for a row of a snapshot. -/
def decision (s : Snapshot) (style : Indent.Style) (unit row : Int) : Query Indent.Decision :=
  Indent.decideAsked (.str style.name) (.tracked s.key s.rows) s.document unit row

/-- What a fresh tracker answers. -/
def Query.afresh {α : Type} (query : Query α) : Except Fault α := (query.run.run .fresh).1

theorem afresh_decision (s : Snapshot) (style : Indent.Style) (unit row : Int) :
    (s.decision style unit row).afresh = s.document.indentDecision style unit row := by
  have known : Indent.Style.ofDatum (.str style.name) = .ok style := by cases style <;> rfl
  rw [decision, Indent.decideAsked, Document.indentDecision, known]
  cases s.document.checkRow row with
  | error fault => rfl
  | ok r =>
      cases r with
      | zero => rfl
      | succ above =>
          have answer := Indent.answers_decideWith s.key s.document.lines style unit (above + 1)
          exact congrArg Except.ok (answer .fresh (Tracker.coherent_fresh _ _)).1

end Snapshot

end LinkerScriptEditor
