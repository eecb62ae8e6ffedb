import LinkerScriptEditor.Proofs.Comment.Erasure
import LinkerScriptEditor.Proofs.Comment.Searching
import LinkerScriptEditor.Proofs.Comment.Sharing
import LinkerScriptEditor.Proofs.Document.Position

/-!
# Three views of the comments of a row

A tracker tells the comments of a row as spans, as an answer for each position and as the row with
spaces in their place. All three go back to one scan of the row, begun in the state that the rows
above leave, so they agree whatever the tracker was asked before. The spans of the scan are those
that the marks of the row tell.
-/

namespace LinkerScriptEditor

/-- What one event does to the documents and to the tracker. -/
def Event.happen (made : Archive × Tracker) : Event → Archive × Tracker
  | .make making => (made.1 ++ (making.result? made.1).toList, made.2)
  | .ask id question =>
    match made.1[id]? with
    | none => made
    | some d => (made.1, ((question.ask ⟨id, d⟩).run.run made.2).2)

/-- The documents and the tracker after some events, of which the first finds neither. -/
def history (events : List Event) : Archive × Tracker := events.foldl Event.happen ([], .fresh)

theorem Archive.Knows.happen {made : Archive × Tracker} (knows : made.1.Knows made.2)
    (event : Event) : (event.happen made).1.Knows (event.happen made).2 := by
  cases event with
  | make making => exact knows.append _
  | ask id question =>
      rw [Event.happen]
      split
      · exact knows
      · next d found => exact (knows.ask found question).2

theorem knows_history (events : List Event) : (history events).1.Knows (history events).2 := by
  rw [history]
  generalize start : (([], .fresh) : Archive × Tracker) = made
  have knows : made.1.Knows made.2 := start ▸ Archive.knows_fresh []
  clear start
  induction events generalizing made with
  | nil => exact knows
  | cons event rest ih => exact ih _ (knows.happen event)

namespace Snapshot

/-- The views of a row that starts inside a comment or outside: they cover the same columns, and
what is not covered is shown as it is. At its end the row is inside a comment if that goes on. -/
structure Views (s : Snapshot) (t : Tracker) (row : Nat) (inside : Bool) (shown : Line) : Prop where
  starts : ((s.startsInside row).run.run t).1 = .ok inside
  spans : ((s.commentSpans row).run.run t).1 =
    .ok (Comment.scanLine inside (s.document.lineAt row)).1
  visible : ((s.visible row).run.run t).1 = .ok shown
  length : shown.length = (s.document.lineAt row).length
  columns : ∀ column ≤ (s.document.lineAt row).length, ∃ dark,
    ((s.isInsideComment ⟨row, column⟩).run.run t).1 = .ok dark ∧
    (column < (s.document.lineAt row).length → (dark = true ↔
      ∃ span ∈ (Comment.scanLine inside (s.document.lineAt row)).1,
        span.start ≤ column ∧ column < span.stop)) ∧
    (column = (s.document.lineAt row).length →
      dark = (Comment.scanLine inside (s.document.lineAt row)).2) ∧
    shown[column]? = (s.document.lineAt row)[column]?.map fun c => if dark then ' ' else c

theorem views_of_coherent (s : Snapshot) {t : Tracker} {row : Nat}
    (coherent : t.Coherent s.key s.document.lines) (bound : row < s.document.lineCount) :
    s.Views t row (Comment.startsInside s.document.lines row)
      (Comment.visible s.document.lines row) := by
  have checked : s.document.checkRow row = .ok row := Document.checkRow_natCast bound
  constructor
  · rw [startsInside, checked]
    exact congrArg Except.ok (Tracker.answers_startsInside _ _ row t coherent).1
  · rw [commentSpans, checked]
    exact congrArg Except.ok (Tracker.answers_spans _ _ row t coherent).1
  · have line : s.document.line row = .ok (s.document.lineAt row) :=
      Document.line_eq_ok (Int.natCast_nonneg row) (Int.ofNat_lt.mpr bound)
    rw [visible, checked, line]
    exact congrArg Except.ok (Tracker.answers_visible _ _ row t coherent).1
  · exact List.length_mapIdx
  · intro column within
    let place : Place := ⟨row, column⟩
    have valid : s.document.checkPosition place.toPosition = .ok place :=
      Document.checkPosition_toPosition bound within
    refine ⟨Comment.isInside s.document.lines place, ?_, ?_, ?_, ?_⟩
    · change ((s.isInsideComment place.toPosition).run.run t).1 = _
      rw [isInsideComment, valid]
      exact congrArg Except.ok (Tracker.answers_isInside _ _ place t coherent).1
    · intro proper
      have covered : Comment.isInside s.document.lines place =
          (Comment.spans (Comment.startsInside s.document.lines row)
            (s.document.lineAt row)).any (·.covers column) := Comment.insideAt_of_lt proper
      simp only [covered, List.any_eq_true, Span.covers, Bool.and_eq_true, decide_eq_true_iff,
        Comment.spans]
    · intro last
      exact if_pos (Nat.le_of_eq last.symm)
    · exact Comment.getElem?_blankOut _ _ column

end Snapshot

/-- A scan of a line finds what the searches for marks find, and so each comment begins and ends at
the first mark that can begin or end it. Whatever documents there are and whatever the tracker was
asked before, its views of a row agree, and they are those of a scan begun in the state in which the
rows above leave the row. -/
theorem comments_of_rows :
    (∀ (inside : Bool) (line : Line),
      (∀ spans goesOn, Comment.Searched line 0 (Comment.entry inside) spans goesOn ↔
        Comment.scanLine inside line = (spans, goesOn)) ∧
      Comment.Delimited inside line (Comment.scanLine inside line).1
        (Comment.scanLine inside line).2) ∧
    ∀ (events : List Event) (id : Nat) (d : Document) (row : Nat),
      (history events).1[id]? = some d → row < d.lineCount → ∃ shown,
        Snapshot.Views ⟨id, d⟩ (history events).2 row (Comment.startsInside d.lines row) shown := by
  constructor
  · intro inside line
    have searched : Comment.Searched line 0 (Comment.entry inside)
        (Comment.scanLine inside line).1 (Comment.scanLine inside line).2 :=
      Comment.searched_iff.mpr rfl
    exact ⟨fun spans goesOn => Comment.searched_iff, searched.delimited⟩
  · intro events id d row found bound
    have coherent := (knows_history events).coherent id d found
    exact ⟨_, Snapshot.views_of_coherent ⟨id, d⟩ coherent bound⟩

/-- A slash behind the star of an opening mark does not close the comment, and the second row of a
document is viewed with what the tracker remembers of the first. -/
theorem comments_of_row_below_open_comment :
    let events : List Event := [.make (.ofText "a /*\n*/ b".toList), .ask 0 (.startsInside 1)]
    let d := Document.ofText "a /*\n*/ b".toList
    Comment.Delimited false "/*/ x */ /**/".toList [⟨0, 8⟩, ⟨9, 13⟩] false ∧
      (history events).1[0]? = some d ∧ 1 < d.lineCount ∧
      Snapshot.Views ⟨0, d⟩ (history events).2 1 true "   b".toList := by
  intro events d
  have delimited := (comments_of_rows.1 false "/*/ x */ /**/".toList).2
  have made : (history events).1[0]? = some d := rfl
  have bound : 1 < d.lineCount := by decide
  obtain ⟨shown, views⟩ := comments_of_rows.2 events 0 d 1 made bound
  have text : shown = "   b".toList := Except.ok.inj (views.visible.symm.trans rfl)
  exact ⟨delimited, made, bound, text ▸ views⟩

end LinkerScriptEditor
