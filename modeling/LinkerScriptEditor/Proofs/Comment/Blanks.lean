import Mathlib.Data.List.DropRight
import LinkerScriptEditor.Proofs.Comment.Shade
import LinkerScriptEditor.Proofs.Comment.Tracking

/-!
# Comments and leading blanks

A blank is no part of a mark, so the blanks that a line begins with have no say in which comments
begin and end on it. Where the rows of a document start, inside a comment or outside, can be told
from the lines without their leading blanks.
-/

namespace LinkerScriptEditor

namespace Line

theorem body_cons_of_blank {c : Char} (blank : isBlank c = true) (rest : Line) :
    body (c :: rest) = body rest := List.dropWhile_cons_of_pos blank

theorem body_cons_of_not_blank {c : Char} (other : isBlank c ≠ true) (rest : Line) :
    body (c :: rest) = c :: rest := List.dropWhile_cons_of_neg other

theorem indentation_cons_of_blank {c : Char} (blank : isBlank c = true) (rest : Line) :
    indentation (c :: rest) = indentation rest + 1 := by
  simp [indentation, blank]

theorem indentation_cons_of_not_blank {c : Char} (other : isBlank c ≠ true) (rest : Line) :
    indentation (c :: rest) = 0 := by
  simp [indentation, other]

theorem body_body (line : Line) : body (body line) = body line :=
  List.dropWhile_idempotent isBlank line

theorem body_spaces_append (width : Nat) (line : Line) :
    body (spaces width ++ line) = body line := by
  induction width with
  | zero => rfl
  | succ width ih =>
      rw [spaces, List.replicate_succ, List.cons_append, body_cons_of_blank rfl]
      exact ih

end Line

namespace Comment

variable {c : Char}

theorem endsInside_cons_of_blank (blank : Line.isBlank c = true) (inside : Bool) (rest : Line) :
    endsInside inside (c :: rest) = endsInside inside rest := by
  cases inside with
  | false =>
      apply endsInside_cons_of_outside
      rintro tail rfl
      cases blank
  | true =>
      apply endsInside_cons_of_inside
      rintro tail rfl
      cases blank

theorem shade_cons_of_blank (blank : Line.isBlank c = true) (inside : Bool) (rest : Line) :
    shade inside (c :: rest) = inside :: shade inside rest := by
  cases inside with
  | false =>
      rw [shade]
      rintro tail rfl
      cases blank
  | true =>
      rw [shade]
      rintro tail rfl
      cases blank

theorem insideAt_cons_of_blank (blank : Line.isBlank c = true) (inside : Bool) (rest : Line)
    (column : Nat) : insideAt inside (c :: rest) (column + 1) = insideAt inside rest column := by
  have covered : (spans inside (c :: rest)).any (·.covers (column + 1)) =
      (spans inside rest).any (·.covers column) := by
    apply Bool.eq_iff_iff.mpr
    simp only [any_covers_spans, shade_cons_of_blank blank, List.getElem?_cons_succ]
  simp only [insideAt, endsInside_cons_of_blank blank, List.length_cons,
    Nat.add_le_add_iff_right, covered]

/-- Leading blanks do not change the state that a line leaves behind. -/
theorem endsInside_body (inside : Bool) (line : Line) :
    endsInside inside (Line.body line) = endsInside inside line := by
  induction line with
  | nil => rfl
  | cons c rest ih =>
      by_cases blank : Line.isBlank c = true
      · rw [Line.body_cons_of_blank blank, endsInside_cons_of_blank blank, ih]
      · rw [Line.body_cons_of_not_blank blank]

theorem startsInside_map_body (lines : List Line) (row : Nat) :
    startsInside (lines.map Line.body) row = startsInside lines row := by
  simp only [startsInside, ← List.map_take, List.foldl_map, endsInside_body]

/-- Lines that differ in leading blanks only start in the same state. -/
theorem startsInside_eq_of_map_body {a b : List Line} (same : a.map Line.body = b.map Line.body)
    (row : Nat) : startsInside a row = startsInside b row := by
  rw [← startsInside_map_body a, ← startsInside_map_body b, same]

/-- Only the rows above a row say where it starts. -/
theorem startsInside_eq_of_above {a b : List Line} {row : Nat}
    (above : ∀ r < row, a.getD r [] = b.getD r []) : startsInside a row = startsInside b row := by
  induction row with
  | zero => rfl
  | succ row ih =>
      have earlier : startsInside a row = startsInside b row :=
        ih fun r lt => above r (Nat.lt_succ_of_lt lt)
      rw [startsInside_succ, startsInside_succ, earlier, above row (Nat.lt_succ_self row)]

/-- A line without its comments is the line with a space wherever it is shaded. -/
theorem blankOut_eq_zipWith (inside : Bool) (line : Line) :
    blankOut inside line =
      List.zipWith (fun c dark => if dark then ' ' else c) line (shade inside line) := by
  apply List.ext_getElem?
  intro column
  rw [blankOut, List.getElem?_mapIdx, List.getElem?_zipWith]
  have length := length_shade inside line
  have covered := any_covers_spans inside line column
  by_cases bound : column < line.length
  · have shaded : column < (shade inside line).length := by omega
    rw [List.getElem?_eq_getElem bound, List.getElem?_eq_getElem shaded]
    rw [List.getElem?_eq_getElem shaded, Option.some_inj, ← Bool.eq_iff_iff] at covered
    simp only [Option.map_some, covered]
  · rw [List.getElem?_eq_none (Nat.le_of_not_lt bound)]
    rfl

theorem blankOut_cons_of_blank (blank : Line.isBlank c = true) (inside : Bool) (rest : Line) :
    ∃ first, Line.isBlank first = true ∧
      blankOut inside (c :: rest) = first :: blankOut inside rest := by
  rw [blankOut_eq_zipWith, shade_cons_of_blank blank, List.zipWith_cons_cons,
    ← blankOut_eq_zipWith]
  cases inside with
  | false => exact ⟨c, blank, rfl⟩
  | true => exact ⟨' ', rfl, rfl⟩

/-- What a line shows behind its leading blanks does not hang on them. -/
theorem body_blankOut_body (inside : Bool) (line : Line) :
    Line.body (blankOut inside (Line.body line)) = Line.body (blankOut inside line) := by
  induction line with
  | nil => rfl
  | cons c rest ih =>
      by_cases blank : Line.isBlank c = true
      · obtain ⟨first, leading, shown⟩ := blankOut_cons_of_blank blank inside rest
        rw [Line.body_cons_of_blank blank, shown, Line.body_cons_of_blank leading, ih]
      · rw [Line.body_cons_of_not_blank blank]

end Comment

end LinkerScriptEditor
