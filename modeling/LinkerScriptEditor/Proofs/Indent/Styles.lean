import LinkerScriptEditor.Proofs.Indent.Apart
import LinkerScriptEditor.Proofs.Indent.Bounds
import LinkerScriptEditor.Proofs.Indent.Finding

/-!
# Where the styles agree

The styles differ only where comments and braces meet. On lines where they keep apart both styles
see the same braces on every row, so they take the same decisions. A pass moves leading blanks only,
and so braces and comments keep apart from its first row to its last.
-/

namespace LinkerScriptEditor.Indent

variable {a b lines : List Line} {unit : Int} {row : Nat}

/-- Other margins leave braces and comments apart. -/
theorem Apart.of_map_body (same : a.map Line.body = b.map Line.body) (apart : Apart a) :
    Apart b := by
  apply apart_of_clear
  intro row
  rw [← clear_body_iff, ← body_getD_of_map_body same row,
    ← Comment.startsInside_eq_of_map_body same row, clear_body_iff]
  exact apart.clear row

section Decisions

variable (apart : Apart lines)
include apart

theorem leading?_of_apart (row : Nat) :
    leading? .faithful lines row = leading? .commentAware lines row := by
  rw [leading?_faithful, leading?_commentAware, Comment.visible,
    (apart.clear row).leadingRule?_blankOut]

/-- A row that is skipped in the one style shows no brace in the other. -/
theorem found?_of_apart (row : Nat) :
    found? .faithful lines row = found? .commentAware lines row := by
  have clear := apart.clear row
  rw [found?_faithful, found?_commentAware, Comment.isInside, Comment.visible,
    clear.scanRule?_blankOut]
  split
  · next begins => exact (clear.scanRule?_eq_none begins).symm
  · rfl

theorem decideRow_of_apart (unit : Int) (row : Nat) :
    decideRow .faithful lines unit row = decideRow .commentAware lines unit row :=
  decideRow_congr (leading?_of_apart apart row) fun r _ => found?_of_apart apart r

end Decisions

/-- Row by row both styles write the same, and what they write leaves braces and comments apart. -/
theorem foldlM_settlePlain_of_apart (unit : Int) (rows : List Nat) (apart : Apart lines) :
    rows.foldlM (settlePlain Margin.write .faithful unit) lines =
      rows.foldlM (settlePlain Margin.write .commentAware unit) lines := by
  induction rows generalizing lines with
  | nil => rfl
  | cons row rows ih =>
      have step : settlePlain Margin.write .faithful unit lines row =
          settlePlain Margin.write .commentAware unit lines row := by
        rw [settlePlain, settlePlain, linePlain, linePlain, decideRow_of_apart apart]
      rw [List.foldlM_cons, List.foldlM_cons, step, settlePlain_eq exact_write, bind_map_left,
        bind_map_left]
      apply bind_congr
      intro _
      apply ih
      exact apart.of_map_body (map_body_set (body_settledLine _ unit lines row)).symm

theorem apart_atLeastOne (apart : Apart lines) : Apart (Document.atLeastOne lines) := by
  cases lines with
  | nil => decide
  | cons line rest => exact apart

/-- Where no brace lies inside a comment, and no row whose text begins inside a comment holds a brace
outside of comments, both styles take the same decision for every row and write the same lines over
every range. -/
theorem styles_agree_of_apart (d : Document) (apart : Apart d.lines) (id : Nat) (unit : Int) :
    (∀ row, (Snapshot.decision ⟨id, d⟩ .faithful unit row).afresh =
        (Snapshot.decision ⟨id, d⟩ .commentAware unit row).afresh) ∧
      ∀ start stop, reindentBounded .faithful unit d.lines start stop =
        reindentBounded .commentAware unit d.lines start stop := by
  constructor
  · intro row
    simp only [Snapshot.afresh_decision, Document.indentDecision, decideRow_of_apart apart]
  · intro start stop
    rw [reindentBounded_eq_foldlM, reindentBounded_eq_foldlM]
    exact foldlM_settlePlain_of_apart unit _ (apart_atLeastOne apart)

/-- A comment that begins behind a brace and ends in front of text, and another on a line of its
own. -/
theorem styles_agree_around_comments :
    let d := Document.ofText "a \x7b /* b\n   c */ d\n/* e */\n f\n \x7d".toList
    Apart d.lines ∧
      (Snapshot.decision ⟨0, d⟩ .commentAware 2 3).afresh.toOption = some ⟨2, .scanOpen, some 0⟩ ∧
      (reindentBounded .commentAware 2 d.lines 0 none).toOption =
        some (["a \x7b /* b", "  c */ d", "  /* e */", "  f", "\x7d"].map String.toList) := by
  intro d
  have apart : Apart d.lines := by decide +kernel
  obtain ⟨decisions, passes⟩ := styles_agree_of_apart d apart 0 2
  rw [← decisions, ← passes]
  exact ⟨apart, by decide +kernel, by decide +kernel⟩

end LinkerScriptEditor.Indent
