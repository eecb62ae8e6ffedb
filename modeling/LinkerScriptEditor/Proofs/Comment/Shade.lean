import LinkerScriptEditor.Comment

/-!
# The shade of comments

The shade of a text says of each character whether it belongs to a comment. It has no columns, so
it can be read off from any point of a text on, and it covers exactly what the spans of a scan
cover. A line feed splits it: no mark of a comment reaches over the end of a line.
-/

namespace LinkerScriptEditor.Comment

/-- Whether each character belongs to a comment, for a text that starts inside or outside one. -/
def shade : Bool → List Char → List Bool
  | true, '*' :: '/' :: rest => true :: true :: shade false rest
  | true, _ :: rest => true :: shade true rest
  | false, '/' :: '*' :: rest => true :: true :: shade true rest
  | false, _ :: rest => false :: shade false rest
  | _, [] => []

theorem length_shade (inside : Bool) (text : List Char) :
    (shade inside text).length = text.length := by
  fun_induction shade inside text <;> simp_all

/-- The state at the end of a scan does not hang on columns. -/
theorem scan_snd_congr (column column' : Nat) (opened opened' : Option Nat) (text : List Char)
    (same : opened.isSome = opened'.isSome) :
    (scan column opened text).2 = (scan column' opened' text).2 := by
  fun_induction scan column opened text generalizing column' opened' with
  | case1 column start rest spans inside run ih =>
      obtain ⟨start', rfl⟩ := Option.isSome_iff_exists.mp same.symm
      rw [scan]
      have := ih (column' + 2) none rfl
      rw [run] at this
      exact this
  | case2 column start c rest other ih =>
      obtain ⟨start', rfl⟩ := Option.isSome_iff_exists.mp same.symm
      rw [scan]
      · exact ih _ _ rfl
      · exact other
  | case3 column start =>
      obtain ⟨start', rfl⟩ := Option.isSome_iff_exists.mp same.symm
      rfl
  | case4 column rest ih =>
      obtain rfl : opened' = none := Option.isNone_iff_eq_none.mp (by simpa using same.symm)
      rw [scan]
      exact ih _ _ rfl
  | case5 column c rest other ih =>
      obtain rfl : opened' = none := Option.isNone_iff_eq_none.mp (by simpa using same.symm)
      rw [scan]
      · exact ih _ _ rfl
      · exact other
  | case6 column =>
      obtain rfl : opened' = none := Option.isNone_iff_eq_none.mp (by simpa using same.symm)
      rfl

theorem scan_snd (column : Nat) (opened : Option Nat) (text : List Char) :
    (scan column opened text).2 = endsInside opened.isSome text := by
  apply scan_snd_congr
  cases opened <;> rfl

theorem endsInside_closing (rest : List Char) :
    endsInside true ('*' :: '/' :: rest) = endsInside false rest :=
  scan_snd 2 none rest

theorem endsInside_opening (rest : List Char) :
    endsInside false ('/' :: '*' :: rest) = endsInside true rest :=
  scan_snd 2 (some 0) rest

theorem endsInside_cons_of_inside {c : Char} {rest : List Char}
    (other : ∀ tail, c = '*' → rest = '/' :: tail → False) :
    endsInside true (c :: rest) = endsInside true rest := by
  rw [endsInside, scanLine, if_pos rfl, scan]
  · exact scan_snd 1 (some 0) rest
  · exact other

theorem endsInside_cons_of_outside {c : Char} {rest : List Char}
    (other : ∀ tail, c = '/' → rest = '*' :: tail → False) :
    endsInside false (c :: rest) = endsInside false rest := by
  rw [endsInside, scanLine, if_neg Bool.false_ne_true, scan]
  · exact scan_snd 1 none rest
  · exact other

/-- Whether a shade that starts at a column is dark at another one. -/
def DarkAt (column : Nat) (shade : List Bool) (c : Nat) : Prop :=
  column ≤ c ∧ shade[c - column]? = some true

theorem not_darkAt_nil (column c : Nat) : ¬ DarkAt column [] c := by
  rintro ⟨-, found⟩
  simp at found

theorem darkAt_cons (column c : Nat) (dark : Bool) (rest : List Bool) :
    DarkAt column (dark :: rest) c ↔ (c = column ∧ dark = true) ∨ DarkAt (column + 1) rest c := by
  by_cases here : c = column
  · subst here
    simp [DarkAt, Nat.not_succ_le_self]
  · by_cases bound : column ≤ c
    · obtain ⟨k, rfl⟩ : ∃ k, c = column + 1 + k := ⟨c - (column + 1), by omega⟩
      have index : column + 1 + k - column = k + 1 := by omega
      simp [DarkAt, index, here]
      omega
    · simp only [DarkAt, here, bound, false_and, false_or, false_iff, not_and]
      omega

/-- The spans of a scan cover the comment that is open from its beginning on, and what the shade
of the text covers. -/
theorem any_covers_scan (column : Nat) (opened : Option Nat) (text : List Char) (c : Nat)
    (before : ∀ start ∈ opened, start ≤ column) :
    (scan column opened text).1.any (·.covers c) = true ↔
      (∃ start ∈ opened, start ≤ c ∧ c < column) ∨
        DarkAt column (shade opened.isSome text) c := by
  fun_induction scan column opened text with
  | case1 column start rest spans inside run ih =>
      have bound : start ≤ column := before start rfl
      have tail := ih nofun
      simp only [run, Option.isSome_none] at tail
      rw [List.any_cons, Bool.or_eq_true, tail]
      by_cases dark : DarkAt (column + 2) (shade false rest) c
      · simp [shade, darkAt_cons, dark]
      · simp [Span.covers, shade, darkAt_cons, dark]
        omega
  | case2 column start c' rest other ih =>
      have bound : start ≤ column := before start rfl
      rw [ih (by simpa using Nat.le_succ_of_le bound)]
      have shaded : shade true (c' :: rest) = true :: shade true rest := by
        rw [shade]
        exact other
      by_cases dark : DarkAt (column + 1) (shade true rest) c
      · simp [shaded, darkAt_cons, dark]
      · simp [shaded, darkAt_cons, dark]
        omega
  | case3 column start =>
      simp [Span.covers, shade, not_darkAt_nil]
  | case4 column rest ih =>
      rw [ih (by simp)]
      by_cases dark : DarkAt (column + 2) (shade true rest) c
      · simp [shade, darkAt_cons, dark]
      · simp [shade, darkAt_cons, dark]
        omega
  | case5 column c' rest other ih =>
      have shaded : shade false (c' :: rest) = false :: shade false rest := by
        rw [shade]
        exact other
      rw [ih nofun]
      simp [shaded, darkAt_cons]
  | case6 column =>
      simp [shade, not_darkAt_nil]

/-- A line feed ends no mark of a comment, so what follows it is scanned on its own. -/
theorem shade_append_newline (inside : Bool) (line rest : List Char) :
    shade inside (line ++ '\n' :: rest) =
      shade inside line ++ endsInside inside line :: shade (endsInside inside line) rest := by
  fun_induction shade inside line with
  | case1 tail ih =>
      rw [endsInside_closing]
      simp only [List.cons_append, shade, ih]
  | case2 c tail other ih =>
      rw [endsInside_cons_of_inside other, List.cons_append, shade, ih]
      · rfl
      · intro tail' star slash
        cases tail with
        | nil => simp at slash
        | cons d tail => exact other tail star (by simp_all)
  | case3 tail ih =>
      rw [endsInside_opening]
      simp only [List.cons_append, shade, ih]
  | case4 c tail other ih =>
      rw [endsInside_cons_of_outside other, List.cons_append, shade, ih]
      · rfl
      · intro tail' slash star
        cases tail with
        | nil => simp at star
        | cons d tail => exact other tail slash (by simp_all)
  | case5 inside =>
      cases inside <;> rfl

theorem endsInside_append_newline (inside : Bool) (line rest : List Char) :
    endsInside inside (line ++ '\n' :: rest) = endsInside (endsInside inside line) rest := by
  fun_induction shade inside line with
  | case1 tail ih =>
      rw [endsInside_closing, ← ih]
      exact endsInside_closing _
  | case2 c tail other ih =>
      rw [endsInside_cons_of_inside other, ← ih, List.cons_append, endsInside_cons_of_inside]
      intro tail' star slash
      cases tail with
      | nil => simp at slash
      | cons d tail => exact other tail star (by simp_all)
  | case3 tail ih =>
      rw [endsInside_opening, ← ih]
      exact endsInside_opening _
  | case4 c tail other ih =>
      rw [endsInside_cons_of_outside other, ← ih, List.cons_append, endsInside_cons_of_outside]
      intro tail' slash star
      cases tail with
      | nil => simp at star
      | cons d tail => exact other tail slash (by simp_all)
  | case5 inside =>
      cases inside
      · exact endsInside_cons_of_outside (by simp)
      · exact endsInside_cons_of_inside (by simp)

theorem any_covers_spans (inside : Bool) (text : List Char) (column : Nat) :
    (spans inside text).any (·.covers column) = true ↔
      (shade inside text)[column]? = some true := by
  rw [spans, scanLine, any_covers_scan]
  · cases inside <;> simp [DarkAt]
  · cases inside <;> simp

/-- The shade of a text and of the place after its last character. -/
def shadeThrough (inside : Bool) (text : List Char) : List Bool :=
  shade inside text ++ [endsInside inside text]

theorem length_shadeThrough (inside : Bool) (text : List Char) :
    (shadeThrough inside text).length = text.length + 1 := by
  rw [shadeThrough, List.length_append, length_shade, List.length_singleton]

theorem shadeThrough_append_newline (inside : Bool) (line rest : List Char) :
    shadeThrough inside (line ++ '\n' :: rest) =
      shadeThrough inside line ++ shadeThrough (endsInside inside line) rest := by
  simp only [shadeThrough, shade_append_newline, endsInside_append_newline, List.append_assoc,
    List.cons_append, List.nil_append]

/-- A place of a line is inside a comment if the line is shaded there. -/
theorem shadeThrough_getElem? (inside : Bool) (line : Line) {column : Nat}
    (bound : column ≤ line.length) :
    (shadeThrough inside line)[column]? = some (insideAt inside line column) := by
  have length := length_shade inside line
  by_cases last : column = line.length
  · rw [shadeThrough, insideAt, if_pos (Nat.le_of_eq last.symm), last, ← length]
    exact List.getElem?_concat_length
  · have proper : column < (shade inside line).length := by omega
    have dark := any_covers_spans inside line column
    rw [List.getElem?_eq_getElem proper, Option.some_inj] at dark
    rw [shadeThrough, List.getElem?_append_left proper, List.getElem?_eq_getElem proper,
      insideAt, if_neg (by omega), Option.some_inj]
    exact Bool.eq_iff_iff.mpr dark.symm

end LinkerScriptEditor.Comment
