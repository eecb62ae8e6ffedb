import LinkerScriptEditor.Proofs.Comment.Erasure
import LinkerScriptEditor.Proofs.Indent.Finding

/-!
# Indentation without comments

The comment-aware style looks at lines without their comments, so it finds on a document what the
faithful style finds on the document without its comments. There are none left there to be skipped
or to be misled by. Only the columns are taken from the document itself: to erase a comment at the
beginning of a line makes its indentation wider.
-/

namespace LinkerScriptEditor

namespace Snapshot

theorem afresh_visible (s : Snapshot) (row : Int) :
    (s.visible row).afresh = s.document.erased.line row := by
  by_cases bound : 0 ≤ row ∧ row < s.document.lineCount
  · have line : s.document.line row = .ok (s.document.lineAt row.toNat) := if_pos bound
    have checked : s.document.checkRow row = .ok row.toNat := if_pos bound
    have shown : s.document.erased.line row =
        .ok (Comment.visible s.document.lines row.toNat) := by
      rw [Document.line, Document.lineCount_erased, if_pos bound, Document.lineAt,
        Document.erased, Comment.getD_erase]
    have answer := Tracker.answers_visible s.key s.document.lines row.toNat
    rw [visible, line, checked, shown]
    exact congrArg Except.ok (answer .fresh (Tracker.coherent_fresh _ _)).1
  · have line : s.document.line row = .error (.noLine row) := if_neg bound
    rw [visible, line, Document.line, Document.lineCount_erased, if_neg bound]
    rfl

theorem afresh_commentSpans (s : Snapshot) (row : Int) :
    (s.commentSpans row).afresh = s.document.commentSpans row := by
  rw [commentSpans, Document.commentSpans]
  cases s.document.checkRow row with
  | error fault => rfl
  | ok r =>
      have answer := Tracker.answers_spans s.key s.document.lines r
      exact congrArg Except.ok (answer .fresh (Tracker.coherent_fresh _ _)).1

end Snapshot

theorem Document.commentSpans_erased (d : Document) (row : Int) :
    d.erased.commentSpans row = (d.checkRow row).map fun _ => [] := by
  rw [commentSpans, checkRow_erased]
  cases d.checkRow row with
  | error fault => rfl
  | ok r => exact congrArg Except.ok (Comment.spans_erase d.lines r)

namespace Indent

theorem leading?_erase (lines : List Line) (row : Nat) :
    leading? .faithful (Comment.erase lines) row = leading? .commentAware lines row := by
  rw [leading?_of_plain (Comment.plain_erase lines), Comment.getD_erase, leading?_commentAware]

/-- No row of the erased lines is skipped. -/
theorem found?_erase (lines : List Line) (row : Nat) :
    found? .faithful (Comment.erase lines) row = found? .commentAware lines row := by
  rw [found?_of_plain (Comment.plain_erase lines), Comment.getD_erase, found?_commentAware]

theorem decideRow_commentAware (lines : List Line) (unit : Int) (row : Nat) :
    decideRow .commentAware lines unit row =
      (decideRow .faithful (Comment.erase lines) unit row).among lines unit :=
  decideRow_simulates (leading?_erase lines row).symm fun r _ => (found?_erase lines r).symm

/-- The visible texts of the rows of a document make up a document that holds no comment and is
its own visible text. For every row of it the faithful style chooses the rule and the row that the
comment-aware style chooses for the document itself, where the column is the indentation of that row
in the document and the units of the rule, or nothing if there is no such row. -/
theorem commentAware_eq_faithful_of_erased (d : Document) (id other : Nat) :
    let original : Snapshot := ⟨id, d⟩
    let erased : Snapshot := ⟨other, d.erased⟩
    (∀ row, (original.visible row).afresh = d.erased.line row) ∧
      (∀ row, (erased.commentSpans row).afresh = (d.checkRow row).map fun _ => []) ∧
      (∀ row, (erased.visible row).afresh = d.erased.line row) ∧
      ∀ unit row, (original.decision .commentAware unit row).afresh =
        ((erased.decision .faithful unit row).afresh).map (Decision.among d.lines unit) := by
  intro original erased
  refine ⟨original.afresh_visible, fun row => ?_, fun row => ?_, fun unit row => ?_⟩
  · rw [Snapshot.afresh_commentSpans, Document.commentSpans_erased]
  · rw [Snapshot.afresh_visible, Document.erased_erased]
  · rw [Snapshot.afresh_decision, Snapshot.afresh_decision, Document.indentDecision,
      Document.indentDecision, Document.checkRow_erased]
    cases d.checkRow row with
    | error fault => rfl
    | ok r => exact congrArg Except.ok (decideRow_commentAware d.lines unit r)

end Indent

end LinkerScriptEditor
