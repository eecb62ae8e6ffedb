import Mathlib.Data.List.GetD
import LinkerScriptEditor.Indent.Reindent
import LinkerScriptEditor.Proofs.Document.Lines
import LinkerScriptEditor.Proofs.Indent.Locality

/-!
# Settling rows

A pass changes its lines in place, and its tracker never learns of it. What the tracker knows stays
good nevertheless: it knows states only, and new margins leave the state of every row as it was. So
a row is settled at the column that is found for it without a tracker.
-/

namespace LinkerScriptEditor.Indent

open Tracker

section Lines

variable {lines : List Line} {row : Nat}

/-- A line with the content of its row in the place of the row changes no content. -/
theorem map_body_set {line : Line} (same : Line.body line = Line.body (lines.getD row [])) :
    (lines.set row line).map Line.body = lines.map Line.body := by
  apply List.ext_getElem?
  intro r
  rw [List.map_set, List.getElem?_set, same, List.length_map, List.getElem?_map]
  by_cases here : row = r
  · subst here
    by_cases bound : row < lines.length
    · rw [if_pos rfl, if_pos bound, List.getD_eq_getElem?_getD, List.getElem?_eq_getElem bound]
      rfl
    · rw [if_pos rfl, if_neg bound, List.getElem?_eq_none (Nat.le_of_not_lt bound)]
      rfl
  · rw [if_neg here]

/-- Rows that are in range are so once another row has been written. -/
theorem bounds_set {line : Line} {rows : List Nat} (bounds : ∀ r ∈ row :: rows, r < lines.length) :
    ∀ r ∈ rows, r < (lines.set row line).length := by
  intro r mem
  rw [List.length_set]
  exact bounds r (List.mem_cons_of_mem row mem)

theorem body_getD_of_map_body {a b : List Line} (same : a.map Line.body = b.map Line.body)
    (row : Nat) : Line.body (a.getD row []) = Line.body (b.getD row []) := by
  have bodies : ∀ lines : List Line,
      (lines.map Line.body).getD row [] = Line.body (lines.getD row []) :=
    fun lines => List.getD_map lines [] Line.body
  rw [← bodies a, ← bodies b, same]

theorem coherent_of_map_body {key : SnapshotKey} {a b : List Line} {t : Tracker}
    (same : a.map Line.body = b.map Line.body) (coherent : Coherent key a t) :
    Coherent key b t := by
  intro turned
  have marked := coherent turned
  constructor
  · exact marked.size_pos
  · intro r bound
    rw [marked.mark r bound, Comment.startsInside_eq_of_map_body same]

end Lines

section Plain

variable {m : Type → Type} [Monad m] [LawfulMonad m] {margin : Int → m Line}

/-- Where a margin is written, it is the one for the column. -/
def Exact (margin : Int → m Line) : Prop :=
  ∀ column, margin column = (fun _ => Margin.ofColumn column) <$> margin column

theorem exact_write : Exact Margin.write := by
  intro column
  cases written : Margin.write column with
  | error fault => rfl
  | ok line =>
      obtain ⟨-, rfl⟩ := Margin.write_eq_ok_iff.mp written
      rfl

theorem exact_ofColumn : Exact (m := Id) Margin.ofColumn := fun _ => rfl

/-- A row at the column that is found for it without a tracker. -/
def linePlain (margin : Int → m Line) (style : Style) (unit : Int) (lines : List Line) (row : Nat) :
    m Line :=
  let content := Line.body (lines.getD row [])
  if content.isEmpty then pure []
  else (· ++ content) <$> margin (decideRow style lines unit row).column

def settlePlain (margin : Int → m Line) (style : Style) (unit : Int) (lines : List Line)
    (row : Nat) : m (List Line) :=
  lines.set row <$> linePlain margin style unit lines row

/-- The line that a row has once it is settled. -/
def settledLine (style : Style) (unit : Int) (lines : List Line) (row : Nat) : Line :=
  let content := Line.body (lines.getD row [])
  if content.isEmpty then []
  else Margin.ofColumn (decideRow style lines unit row).column ++ content

theorem body_settledLine (style : Style) (unit : Int) (lines : List Line) (row : Nat) :
    Line.body (settledLine style unit lines row) = Line.body (lines.getD row []) := by
  rw [settledLine]
  split
  · next blank => exact (List.isEmpty_iff.mp blank).symm
  · rw [Margin.ofColumn, Line.body_spaces_append, Line.body_body]

/-- The lines once a row is settled. -/
def settleRow (style : Style) (unit : Int) (lines : List Line) (row : Nat) : List Line :=
  lines.set row (settledLine style unit lines row)

/-- The number of rows, the rows that are not settled and the contents of all rows are kept. -/
structure Kept (rows : List Nat) (lines result : List Line) : Prop where
  length : result.length = lines.length
  outside : ∀ r ∉ rows, result.getD r [] = lines.getD r []
  bodies : result.map Line.body = lines.map Line.body

theorem Kept.getD_body {rows : List Nat} {lines result : List Line} (kept : Kept rows lines result)
    (row : Nat) : Line.body (result.getD row []) = Line.body (lines.getD row []) :=
  body_getD_of_map_body kept.bodies row

/-- There is a line left of lines of which there was one. -/
theorem Kept.atLeastOne {rows : List Nat} {lines result : List Line}
    (kept : Kept rows (Document.atLeastOne lines) result) :
    Document.atLeastOne result = result := by
  apply Document.atLeastOne_of_ne_nil
  intro empty
  have length := kept.length
  rw [empty] at length
  exact Document.atLeastOne_ne_nil lines (List.eq_nil_of_length_eq_zero length.symm)

theorem Kept.alike {first count : Nat} {lines result : List Line}
    (kept : Kept (List.range' first count) lines result) : Alike first lines result where
  above := by
    intro r lt
    refine (kept.outside r ?_).symm
    intro mem
    have := (List.mem_range'_1.mp mem).1
    omega
  own := (kept.getD_body first).symm

theorem getD_set_self {lines : List Line} {row : Nat} (line : Line) (bound : row < lines.length) :
    (lines.set row line).getD row [] = line := by
  rw [List.getD_eq_getElem?_getD, List.getElem?_set_self bound]
  rfl

theorem getD_set_of_ne {lines : List Line} {row other : Nat} (line : Line) (ne : row ≠ other) :
    (lines.set row line).getD other [] = lines.getD other [] := by
  rw [List.getD_eq_getElem?_getD, List.getElem?_set_ne ne, List.getD_eq_getElem?_getD]

theorem kept_foldl_settleRow (style : Style) (unit : Int) (rows : List Nat) (lines : List Line) :
    Kept rows lines (rows.foldl (settleRow style unit) lines) := by
  induction rows generalizing lines with
  | nil => exact ⟨rfl, fun _ _ => rfl, rfl⟩
  | cons row rows ih =>
      have kept := ih (settleRow style unit lines row)
      rw [List.foldl_cons]
      constructor
      · rw [kept.length, settleRow, List.length_set]
      · intro r mem
        have ne : row ≠ r := fun same => mem (same ▸ List.mem_cons_self)
        rw [kept.outside r fun later => mem (List.mem_cons_of_mem row later), settleRow,
          getD_set_of_ne _ ne]
      · rw [kept.bodies, settleRow, map_body_set (body_settledLine style unit lines row)]

theorem linePlain_exact (exact : Exact margin) (style : Style) (unit : Int) (lines : List Line)
    (row : Nat) :
    linePlain margin style unit lines row =
      (fun _ => settledLine style unit lines row) <$> linePlain margin style unit lines row := by
  rw [linePlain, settledLine]
  split
  · rw [map_pure]
  · rw [exact, Functor.map_map, Functor.map_map]

/-- A row that is settled at all is settled as it is without bounds. -/
theorem settlePlain_eq (exact : Exact margin) (style : Style) (unit : Int) (lines : List Line)
    (row : Nat) :
    settlePlain margin style unit lines row =
      (fun _ => settleRow style unit lines row) <$> linePlain margin style unit lines row :=
  calc
    settlePlain margin style unit lines row
      = lines.set row <$> (fun _ => settledLine style unit lines row) <$>
          linePlain margin style unit lines row :=
        congrArg _ (linePlain_exact exact style unit lines row)
    _ = (fun _ => settleRow style unit lines row) <$>
          linePlain margin style unit lines row := Functor.map_map _ _ _

/-- On a tracker that knows the states of the rows, a row is settled at the column that is found
without it, and the tracker stays good for the lines as they are then. -/
theorem run_settle_of_coherent (exact : Exact margin) {style : Style} {unit : Int}
    {lines : List Line} {t : Tracker} (coherent : Coherent passKey lines t) (row : Nat) :
    ∃ after, Coherent passKey (settleRow style unit lines row) after ∧
      (settle margin style unit lines row).run t =
        (fun _ => (settleRow style unit lines row, after)) <$>
          linePlain margin style unit lines row := by
  have same := map_body_set (body_settledLine style unit lines row)
  obtain ⟨decided, kept, -⟩ := answers_decideWith passKey lines style unit row t coherent
  rw [Indent.run_settle, linePlain, settleRow]
  dsimp only
  by_cases blank : (Line.body (lines.getD row [])).isEmpty = true
  · refine ⟨t, coherent_of_map_body same.symm coherent, ?_⟩
    rw [if_pos blank, if_pos blank, settledLine, if_pos blank, map_pure]
  · refine ⟨_, coherent_of_map_body same.symm kept, ?_⟩
    rw [if_neg blank, if_neg blank, settledLine, if_neg blank, decided, exact, Functor.map_map,
      Functor.map_map, Functor.map_map]

/-- A pass with a tracker settles the rows as a pass without one. -/
theorem run_foldlM_settle (exact : Exact margin) (style : Style) (unit : Int) (rows : List Nat)
    {lines : List Line} {t : Tracker} (coherent : Coherent passKey lines t) :
    Prod.fst <$> (rows.foldlM (settle margin style unit) lines).run t =
      rows.foldlM (settlePlain margin style unit) lines := by
  -- on the rows still to be settled; the tracker stays good for the lines of the moment
  induction rows generalizing lines t with
  | nil => exact map_pure _ _
  | cons row rows ih =>
      obtain ⟨after, kept, run⟩ := run_settle_of_coherent exact coherent row
      rw [List.foldlM_cons, List.foldlM_cons, StateT.run_bind, run, bind_map_left, map_bind,
        settlePlain_eq exact, bind_map_left]
      exact bind_congr fun _ => ih kept

theorem pass_eq_plain (exact : Exact margin) (style : Style) (unit : Int) (lines : List Line)
    (start : Int) (stop : Option Int) :
    pass margin style unit lines start stop =
      (rowsBetween (Document.atLeastOne lines).length start stop).foldlM
        (settlePlain margin style unit) (Document.atLeastOne lines) :=
  run_foldlM_settle exact style unit _ (coherent_fresh _ _)

end Plain

section Main

variable {style : Style} {unit : Int} {lines work : List Line} {t after : Tracker}

/-- Whatever rows have been settled, no content has changed and the tracker is good for the lines
as they are. -/
theorem coherent_of_run_settle (coherent : Coherent passKey lines t) {done : List Nat}
    (run : (done.foldlM (settle Margin.write style unit) lines).run t = .ok (work, after)) :
    work.map Line.body = lines.map Line.body ∧ Coherent passKey work after := by
  induction done generalizing lines t with
  | nil =>
      cases run
      exact ⟨rfl, coherent⟩
  | cons row rows ih =>
      obtain ⟨middle, kept, first⟩ := run_settle_of_coherent exact_write coherent row
      rw [List.foldlM_cons, StateT.run_bind, first] at run
      cases plain : linePlain Margin.write style unit lines row with
      | error fault =>
          rw [plain] at run
          cases run
      | ok line =>
          rw [plain] at run
          obtain ⟨same, good⟩ := ih kept run
          exact ⟨same.trans (map_body_set (body_settledLine style unit lines row)), good⟩

end Main

end LinkerScriptEditor.Indent
