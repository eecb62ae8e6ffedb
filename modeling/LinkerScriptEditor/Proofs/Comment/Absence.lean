import LinkerScriptEditor.Proofs.Comment.Blanks

/-!
# Lines without comments

Where no line holds an opening mark, no row starts inside a comment, no place is inside one and
every row shows all of its text. Leading blanks cannot complete a mark.
-/

namespace LinkerScriptEditor

/-- No line holds an opening mark. -/
def Plain (lines : List Line) : Prop := ∀ line ∈ lines, ¬['/', '*'] <:+: line

instance (lines : List Line) : Decidable (Plain lines) :=
  inferInstanceAs (Decidable (∀ line ∈ lines, ¬['/', '*'] <:+: line))

namespace Comment

theorem isInfix_body_iff (line : Line) :
    ['/', '*'] <:+: Line.body line ↔ ['/', '*'] <:+: line := by
  induction line with
  | nil => rfl
  | cons c rest ih =>
      by_cases blank : Line.isBlank c = true
      · rw [Line.body_cons_of_blank blank, ih, List.infix_cons_iff, or_iff_right]
        intro starts
        obtain ⟨rfl, -⟩ := List.cons_prefix_cons.mp starts
        cases blank
      · rw [Line.body_cons_of_not_blank blank]

theorem scan_of_plain {line : Line} (plain : ¬['/', '*'] <:+: line) (column : Nat) :
    scan column none line = ([], false) := by
  induction line generalizing column with
  | nil => rfl
  | cons c rest ih =>
      rw [List.infix_cons_iff, not_or] at plain
      obtain ⟨here, later⟩ := plain
      rw [scan]
      · exact ih later (column + 1)
      · rintro tail rfl rfl
        exact here (List.prefix_append ['/', '*'] tail)

variable {lines : List Line}

theorem plain_of_map_body {others : List Line} (same : others.map Line.body = lines.map Line.body)
    (plain : Plain lines) : Plain others := by
  intro line mem
  have body : Line.body line ∈ lines.map Line.body := same ▸ List.mem_map_of_mem mem
  obtain ⟨old, found, bodies⟩ := List.mem_map.mp body
  rw [← isInfix_body_iff, ← bodies, isInfix_body_iff]
  exact plain old found

theorem scanLine_of_plain (plain : Plain lines) (row : Nat) :
    scanLine false (lines.getD row []) = ([], false) := by
  rw [List.getD_eq_getElem?_getD]
  cases found : lines[row]? with
  | none => rfl
  | some line => exact scan_of_plain (plain line (List.mem_of_getElem? found)) 0

theorem startsInside_of_plain (plain : Plain lines) (row : Nat) :
    startsInside lines row = false := by
  induction row with
  | zero => rfl
  | succ row ih => rw [startsInside_succ, ih, endsInside, scanLine_of_plain plain]

theorem isInside_of_plain (plain : Plain lines) (place : Place) : isInside lines place = false := by
  rw [isInside, startsInside_of_plain plain, insideAt, endsInside, spans, scanLine_of_plain plain]
  exact ite_self false

theorem visible_of_plain (plain : Plain lines) (row : Nat) :
    visible lines row = lines.getD row [] := by
  rw [visible, startsInside_of_plain plain, blankOut, spans, scanLine_of_plain plain]
  apply List.ext_getElem?
  intro column
  rw [List.getElem?_mapIdx]
  cases (lines.getD row [])[column]? <;> rfl

end Comment

end LinkerScriptEditor
