import LinkerScriptEditor.Proofs.Document.Position
import LinkerScriptEditor.Proofs.Indent.Settling

/-!
# Passes that keep nothing

A pass that makes a new document of the lines for every row and asks a fresh tracker is slow, but
there is nothing in it that could be out of date. The pass with one tracker comes out the same,
also where it is refused.
-/

namespace LinkerScriptEditor.Indent

open Tracker

/-- The decision for a row of a new document, by a tracker that knows nothing yet. -/
def decisionAfresh (style : Datum) (unit : Int) (lines : List Line) (row : Nat) :
    Except Fault Decision :=
  let s : Snapshot := ⟨0, .ofLines lines⟩
  ((decideAsked style (.tracked s.key s.rows) s.document unit row).run.run .fresh).1

/-- What a row comes out as: nothing if it is blank, else its content at the column for it. -/
def lineAfresh (style : Datum) (unit : Int) (lines : List Line) (row : Nat) : Except Fault Line :=
  let content := Line.body (lines.getD row [])
  if content.isEmpty then return []
  else return (← Margin.write (← decisionAfresh style unit lines row).column) ++ content

def settleAfresh (style : Datum) (unit : Int) (lines : List Line) (row : Nat) :
    Except Fault (List Line) :=
  lines.set row <$> lineAfresh style unit lines row

/-- One row after the other, each with a document and a tracker of its own. -/
def passAfresh (style : Datum) (unit : Int) (lines : List Line) (start : Int)
    (stop : Option Int) : Except Fault (List Line) :=
  let lines := Document.atLeastOne lines
  (rowsBetween lines.length start stop).foldlM (settleAfresh style unit) lines

/-- The first row needs no style, and for the others a fresh tracker sees all comments. -/
theorem decisionAfresh_eq (style : Datum) (unit : Int) {lines : List Line} {row : Nat}
    (bound : row < lines.length) :
    decisionAfresh style unit lines row =
      if row = 0 then .ok ⟨0, .firstLine, none⟩
      else (Style.ofDatum style).map fun s => decideRow s lines unit row := by
  have same : (Document.ofLines lines).lines = lines :=
    Document.atLeastOne_of_ne_nil (List.ne_nil_of_length_pos (Nat.zero_lt_of_lt bound))
  have checked : (Document.ofLines lines).checkRow row = .ok row :=
    Document.checkRow_natCast (by rwa [same])
  rw [decisionAfresh, decideAsked, checked, Snapshot.rows, same]
  cases row with
  | zero => rfl
  | succ above =>
      rw [if_neg (Nat.succ_ne_zero above)]
      cases Style.ofDatum style with
      | error fault => rfl
      | ok s =>
          exact congrArg Except.ok
            (answers_decideWith _ lines s unit (above + 1) .fresh (coherent_fresh _ _)).1

section Asked

variable {style : Datum} {unit : Int} {lines : List Line} {row : Nat}

theorem lineAfresh_of_ok {s : Style} (known : Style.ofDatum style = .ok s)
    (bound : row < lines.length) :
    lineAfresh style unit lines row = linePlain Margin.write s unit lines row := by
  rw [lineAfresh, linePlain]
  split
  · rfl
  · rw [decisionAfresh_eq style unit bound, known]
    cases row <;> rfl

/-- Whether a pass asks for the style at a row. -/
def asks (lines : List Line) (row : Nat) : Bool :=
  row != 0 && !(Line.body (lines.getD row [])).isEmpty

theorem lineAfresh_of_asks {fault : Fault} (unknown : Style.ofDatum style = .error fault)
    (bound : row < lines.length) (asked : asks lines row = true) :
    lineAfresh style unit lines row = .error fault := by
  rw [asks, Bool.and_eq_true, bne_iff_ne, Bool.not_eq_true'] at asked
  obtain ⟨later, filled⟩ := asked
  rw [lineAfresh, filled, if_neg Bool.false_ne_true, decisionAfresh_eq style unit bound,
    if_neg later, unknown]
  rfl

/-- A row that is blank or the first comes out the same under every style. -/
theorem lineAfresh_of_not_asks (style : Datum) (unit : Int) (bound : row < lines.length)
    (silent : asks lines row = false) (s : Style) :
    lineAfresh style unit lines row = .ok (settledLine s unit lines row) ∧
      linePlain Margin.write s unit lines row = .ok (settledLine s unit lines row) := by
  rw [asks, Bool.and_eq_false_iff, bne_eq_false_iff_eq, Bool.not_eq_false'] at silent
  rw [lineAfresh, linePlain, settledLine]
  by_cases blank : (Line.body (lines.getD row [])).isEmpty = true
  · rw [if_pos blank, if_pos blank, if_pos blank]
    exact ⟨rfl, rfl⟩
  · obtain rfl : row = 0 := silent.resolve_right blank
    rw [if_neg blank, if_neg blank, if_neg blank, decisionAfresh_eq style unit bound]
    exact ⟨rfl, rfl⟩

theorem asks_of_map_body {a b : List Line} (same : a.map Line.body = b.map Line.body)
    (row : Nat) : asks a row = asks b row := by
  rw [asks, asks, body_getD_of_map_body same]

theorem foldlM_lineAfresh_of_ok {s : Style} (known : Style.ofDatum style = .ok s)
    {rows : List Nat} (bounds : ∀ row ∈ rows, row < lines.length) :
    rows.foldlM (settleAfresh style unit) lines =
      rows.foldlM (settlePlain Margin.write s unit) lines := by
  induction rows generalizing lines with
  | nil => rfl
  | cons row rows ih =>
      rw [List.foldlM_cons, List.foldlM_cons, settleAfresh, settlePlain,
        lineAfresh_of_ok known (bounds row List.mem_cons_self)]
      cases linePlain Margin.write s unit lines row with
      | error fault => rfl
      | ok line => exact ih (bounds_set bounds)

/-- Under an unknown style a pass goes well as long as no row asks for the style. -/
theorem foldlM_lineAfresh_of_error {fault : Fault} (unknown : Style.ofDatum style = .error fault)
    (s : Style) {rows : List Nat} (bounds : ∀ row ∈ rows, row < lines.length) :
    rows.foldlM (settleAfresh style unit) lines =
      if rows.any (asks lines) then .error fault
      else rows.foldlM (settlePlain Margin.write s unit) lines := by
  induction rows generalizing lines with
  | nil => rfl
  | cons row rows ih =>
      have bound := bounds row List.mem_cons_self
      rw [List.foldlM_cons, List.foldlM_cons, List.any_cons, settleAfresh, settlePlain]
      cases asked : asks lines row with
      | true =>
          rw [lineAfresh_of_asks unknown bound asked]
          rfl
      | false =>
          obtain ⟨fresh, plain⟩ := lineAfresh_of_not_asks style unit bound asked s
          have same := map_body_set (body_settledLine s unit lines row)
          rw [fresh, plain, Bool.false_or, ← funext (asks_of_map_body same)]
          exact ih (bounds_set bounds)

/-- The style of a pass that goes well: the one asked for, or any if none was asked for. -/
def askedStyle (style : Datum) : Style := (Style.ofDatum? style).getD .faithful

theorem eq_settledLine_of_lineAfresh {line : Line} (bound : row < lines.length)
    (came : lineAfresh style unit lines row = .ok line) :
    line = settledLine (askedStyle style) unit lines row := by
  rw [askedStyle]
  cases known : Style.ofDatum? style with
  | some s =>
      have ofDatum : Style.ofDatum style = .ok s := by rw [Style.ofDatum, known]
      rw [lineAfresh_of_ok ofDatum bound, linePlain_exact exact_write] at came
      cases plain : linePlain Margin.write s unit lines row with
      | error fault =>
          rw [plain] at came
          cases came
      | ok written =>
          rw [plain] at came
          cases came
          rfl
  | none =>
      have ofDatum : Style.ofDatum style = .error (.unknownStyle style) := by
        rw [Style.ofDatum, known]
      cases asked : asks lines row with
      | true =>
          rw [lineAfresh_of_asks ofDatum bound asked] at came
          cases came
      | false =>
          rw [(lineAfresh_of_not_asks style unit bound asked .faithful).1] at came
          cases came
          rfl

theorem eq_foldl_of_foldlM_settleAfresh {rows : List Nat} {result : List Line}
    (bounds : ∀ row ∈ rows, row < lines.length)
    (run : rows.foldlM (settleAfresh style unit) lines = .ok result) :
    result = rows.foldl (settleRow (askedStyle style) unit) lines := by
  induction rows generalizing lines with
  | nil =>
      cases run
      rfl
  | cons row rows ih =>
      rw [List.foldlM_cons, settleAfresh] at run
      cases came : lineAfresh style unit lines row with
      | error fault =>
          rw [came] at run
          cases run
      | ok line =>
          rw [came] at run
          rw [List.foldl_cons, settleRow,
            ← eq_settledLine_of_lineAfresh (bounds row List.mem_cons_self) came]
          exact ih (bounds_set bounds) run

theorem mem_rowsBetween {count : Nat} {start : Int} {stop : Option Int} :
    row ∈ rowsBetween count start stop ↔
      row < count ∧ start ≤ row ∧ ∀ last ∈ stop, (row : Int) < last := by
  cases stop with
  | none =>
      simp only [rowsBetween, List.mem_range'_1, Option.mem_def, reduceCtorEq, false_implies,
        implies_true, and_true]
      omega
  | some last =>
      simp only [rowsBetween, List.mem_range'_1, Option.mem_def, Option.some.injEq, forall_eq']
      omega

theorem bounds_rowsBetween (lines : List Line) (start : Int) (stop : Option Int) :
    ∀ row ∈ rowsBetween (Document.atLeastOne lines).length start stop,
      row < (Document.atLeastOne lines).length :=
  fun _ mem => (mem_rowsBetween.mp mem).1

theorem needsStyle_eq_any (lines : List Line) (start : Int) (stop : Option Int) :
    needsStyle lines start stop =
      (rowsBetween (Document.atLeastOne lines).length start stop).any
        (asks (Document.atLeastOne lines)) := by
  cases lines with
  | nil =>
      have nowhere : needsStyle [] start stop = false := by
        rw [needsStyle, List.any_eq_false]
        intro row mem
        exact absurd (mem_rowsBetween.mp mem).1 (Nat.not_lt_zero row)
      rw [nowhere, eq_comm, List.any_eq_false]
      intro row _
      rw [asks, Document.getD_atLeastOne]
      simp [Line.body]
  | cons line lines => rfl

end Asked

/-- Under every style that can be asked for a pass comes out as one row after the other does. -/
theorem reindentAsked_eq_foldlM (style : Datum) (unit : Int) (lines : List Line) (start : Int)
    (stop : Option Int) :
    reindentAsked style unit lines start stop =
      (rowsBetween (Document.atLeastOne lines).length start stop).foldlM
        (settleAfresh style unit) (Document.atLeastOne lines) := by
  have bounds := bounds_rowsBetween lines start stop
  rw [reindentAsked]
  cases known : Style.ofDatum style with
  | ok s =>
      dsimp only
      rw [reindentBounded, pass_eq_plain exact_write, foldlM_lineAfresh_of_ok known bounds]
  | error fault =>
      dsimp only
      rw [reindentBounded, pass_eq_plain exact_write, needsStyle_eq_any,
        foldlM_lineAfresh_of_error known .faithful bounds]

/-- A pass comes out as the pass that makes a new document for every row and asks a fresh tracker,
under every style that can be asked for. Whatever rows have been settled on the way, every row
starts inside a comment just if it did at first, and the tracker of the pass says so. -/
theorem reindentAsked_eq_passAfresh (style : Datum) (unit : Int) (lines : List Line) (start : Int)
    (stop : Option Int) :
    reindentAsked style unit lines start stop = passAfresh style unit lines start stop ∧
      ∀ s (done : List Nat) work after,
        (done.foldlM (settle Margin.write s unit) (Document.atLeastOne lines)).run .fresh =
            .ok (work, after) →
          ∀ row, Comment.startsInside work row = Comment.startsInside lines row ∧
            ((Tracker.startsInside passKey work.toArray row).run after).1 =
              Comment.startsInside lines row := by
  constructor
  · exact reindentAsked_eq_foldlM style unit lines start stop
  · intro s done work after run row
    obtain ⟨same, coherent⟩ := coherent_of_run_settle (coherent_fresh _ _) run
    have first : Comment.startsInside (Document.atLeastOne lines) row =
        Comment.startsInside lines row :=
      Comment.startsInside_eq_of_above fun r _ => Document.getD_atLeastOne lines r
    have states : Comment.startsInside work row = Comment.startsInside lines row :=
      (Comment.startsInside_eq_of_map_body same row).trans first
    exact ⟨states, (answers_startsInside passKey work row after coherent).1.trans states⟩

end LinkerScriptEditor.Indent
