import LinkerScriptEditor.Indent
import LinkerScriptEditor.Margin

/-!
# Re-indentation

A pass goes down a range of rows and writes each row at the column decided from the rows above,
which are settled by then. Blank rows come out empty and negative columns as no indentation. One
tracker serves the whole pass: only leading blanks change, and they never move the border of a
comment. How margins are written is a parameter: without bounds a pass always has a result, within
bounds it has the same one or fails at the first margin that is too wide.
-/

namespace LinkerScriptEditor.Indent

/-- The pass works on one list of lines, whatever its rows hold at the moment. -/
def passKey : SnapshotKey := ⟨0, 0⟩

/-- The existing rows from `start` up to `stop`; without a `stop` all from `start` on. -/
def rowsBetween (count : Nat) (start : Int) (stop : Option Int) : List Nat :=
  let first := start.toNat
  let last := match stop with
    | none => count
    | some stop => min stop.toNat count
  List.range' first (last - first)

section
variable {m : Type → Type} [Monad m]

/-- Puts one row at its column. -/
def settle (margin : Int → m Line) (style : Style) (unit : Int) (lines : List Line) (row : Nat) :
    StateT Tracker m (List Line) := do
  let content := Line.body (lines.getD row [])
  if content.isEmpty then
    return lines.set row []
  else
    let rows := lines.toArray
    let decision ← modifyGet (decideWith style (.tracked passKey rows) rows unit row).run
    return lines.set row ((← margin decision.column) ++ content)

/-- Settles the rows from `start` up to `stop`. -/
def pass (margin : Int → m Line) (style : Style) (unit : Int) (lines : List Line) (start : Int)
    (stop : Option Int) : m (List Line) :=
  let lines := Document.atLeastOne lines
  ((rowsBetween lines.length start stop).foldlM (settle margin style unit) lines).run' Tracker.fresh

end

/-- Re-indents the rows from `start` up to `stop`. -/
def reindent (style : Style) (unit : Int) (lines : List Line) (start : Int) (stop : Option Int) :
    List Line :=
  Id.run (pass (m := Id) Margin.ofColumn style unit lines start stop)

/-- Re-indents the rows from `start` up to `stop`, if all margins can be written. -/
def reindentBounded (style : Style) (unit : Int) (lines : List Line) (start : Int)
    (stop : Option Int) : Except Fault (List Line) :=
  pass Margin.write style unit lines start stop

/-- A blank row is cleared. Any other row gets the margin for its column. -/
theorem run_settle {m : Type → Type} [Monad m] [LawfulMonad m] (margin : Int → m Line)
    (style : Style) (unit : Int) (lines : List Line) (row : Nat) (t : Tracker) :
    (settle margin style unit lines row).run t =
      let content := Line.body (lines.getD row [])
      if content.isEmpty then pure (lines.set row [], t)
      else
        let sight := Sight.tracked passKey lines.toArray
        let decided := (decideWith style sight lines.toArray unit row).run t
        (fun written => (lines.set row (written ++ content), decided.2)) <$>
          margin decided.1.column := by
  rw [settle]
  dsimp only
  split
  · simp
  · simp

theorem run_settle_of_ok {style : Style} {unit : Int} {lines : List Line} {row : Nat}
    {t : Tracker} {result : List Line × Tracker}
    (h : (settle Margin.write style unit lines row).run t = .ok result) :
    (settle (m := Id) Margin.ofColumn style unit lines row).run t = result := by
  rw [run_settle] at h ⊢
  dsimp only at h ⊢
  split
  · next empty =>
    rw [if_pos empty] at h
    cases h
    rfl
  · next nonempty =>
    rw [if_neg nonempty] at h
    cases written : Margin.write ((decideWith style (.tracked passKey lines.toArray) lines.toArray
        unit row).run t).1.column with
    | error fault =>
      rw [written] at h
      cases h
    | ok margin =>
      obtain ⟨-, rfl⟩ := Margin.write_eq_ok_iff.mp written
      rw [written] at h
      cases h
      rfl

theorem run_foldlM_settle_of_ok {style : Style} {unit : Int} {rows : List Nat} :
    ∀ {lines : List Line} {t : Tracker} {result : List Line × Tracker},
      (rows.foldlM (settle Margin.write style unit) lines).run t = .ok result →
      (rows.foldlM (settle (m := Id) Margin.ofColumn style unit) lines).run t = result := by
  induction rows with
  | nil =>
    intro lines t result h
    cases h
    rfl
  | cons row rows ih =>
    intro lines t result h
    rw [List.foldlM_cons, StateT.run_bind] at h ⊢
    cases first : (settle Margin.write style unit lines row).run t with
    | error fault =>
      rw [first] at h
      cases h
    | ok next =>
      rw [first] at h
      rw [run_settle_of_ok first]
      exact ih h

/-- Bounds do not change what a pass makes of the lines. -/
theorem reindent_eq_of_ok {style : Style} {unit : Int} {lines result : List Line} {start : Int}
    {stop : Option Int} (h : reindentBounded style unit lines start stop = .ok result) :
    reindent style unit lines start stop = result := by
  rw [reindentBounded, pass, StateT.run'] at h
  cases run : ((rowsBetween (Document.atLeastOne lines).length start stop).foldlM
      (settle Margin.write style unit) (Document.atLeastOne lines)).run Tracker.fresh with
  | error fault =>
    simp only [StateT.run] at run
    rw [run] at h
    cases h
  | ok final =>
    have all := run_foldlM_settle_of_ok run
    simp only [StateT.run] at run
    rw [run] at h
    cases h
    exact congrArg Prod.fst all

/-- Whether a pass asks for the style: it does at every row but the first that is not blank. -/
def needsStyle (lines : List Line) (start : Int) (stop : Option Int) : Bool :=
  (rowsBetween lines.length start stop).any fun row =>
    row != 0 && !(Line.body (lines.getD row [])).isEmpty

/-- Re-indents under a style that a host asks for. -/
def reindentAsked (style : Datum) (unit : Int) (lines : List Line) (start : Int)
    (stop : Option Int) : Except Fault (List Line) :=
  match Style.ofDatum style with
  | .ok style => reindentBounded style unit lines start stop
  | .error fault =>
    if needsStyle lines start stop then .error fault
    else reindentBounded .faithful unit lines start stop

end LinkerScriptEditor.Indent
