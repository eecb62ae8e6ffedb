import Mathlib.Data.List.GetD
import LinkerScriptEditor.Proofs.Comment.Clear
import LinkerScriptEditor.Proofs.Document.Position
import LinkerScriptEditor.Proofs.Highlight.Apart

/-!
# Where styles land

Columns are counted on the lines, hidden characters included, but styles are laid on the characters
that are shown. So a style that is meant for a column lands on the shown character of that number.
Up to the first hidden character of a line these are the same, and every style is on the characters
that it is about; behind it, every character is shown further to the left than its style.
-/

namespace LinkerScriptEditor

namespace Highlight

open StyledText

/-- The characters shown of a row: those of its line that are not hidden, and a space for a cursor
at the end of the line. -/
def shownRow (cursor : Option Position) (r : Nat) (text : Line) : Line :=
  shown text ++ if cursor = some ⟨r, text.length⟩ then [' '] else []

def shownRows (cursor : Option Position) (lines : List Line) : List Line :=
  lines.mapIdx (shownRow cursor)

/-- The character of a row on which the cursor is shown: the one with the number of the cursor's
column, or the space behind the line. -/
def ShowsCursor (cursor : Option Position) (r : Nat) (text : Line) (k : Nat) : Prop :=
  (k < (shown text).length ∧ cursor = some ⟨r, k⟩) ∨
    (k = (shown text).length ∧ cursor = some ⟨r, text.length⟩)

instance (cursor : Option Position) (r : Nat) (text : Line) (k : Nat) :
    Decidable (ShowsCursor cursor r text k) :=
  inferInstanceAs (Decidable ((k < (shown text).length ∧ cursor = some ⟨r, k⟩) ∨
    (k = (shown text).length ∧ cursor = some ⟨r, text.length⟩)))

theorem length_shown_le (text : Line) : (shown text).length ≤ text.length :=
  List.length_filter_le _ _

/-- The number of the shown character that stands for a column of a line. -/
def rank (text : Line) (column : Nat) : Nat := (shown (text.take column)).length

/-- A character that is not hidden is shown, further to the left by the hidden ones before it. -/
theorem getElem?_shown_rank {text : Line} {column : Nat} {c : Char}
    (found : text[column]? = some c) (visible : isHidden c = false) :
    (shown text)[rank text column]? = some c ∧
      (rank text column = column ↔ ∀ other ∈ text.take column, isHidden other = false) := by
  obtain ⟨bound, rfl⟩ := List.getElem?_eq_some_iff.mp found
  have split : shown text =
      shown (text.take column) ++ text[column] :: shown (text.drop (column + 1)) := by
    calc shown text
      _ = shown (text.take column ++ text[column] :: text.drop (column + 1)) := by
        rw [← List.drop_eq_getElem_cons bound, List.take_append_drop]
      _ = _ := by
        simp only [shown, List.filter_append, List.filter_cons, visible, Bool.not_false, if_true]
  constructor
  · rw [split, rank, List.getElem?_append_right (Nat.le_refl _), Nat.sub_self]
    rfl
  · have width : (text.take column).length = column := List.length_take_of_le (Nat.le_of_lt bound)
    have all := List.length_filter_eq_length_iff (p := fun c => !isHidden c)
      (l := text.take column)
    rw [width] at all
    simpa [rank, shown] using all

section Row

variable {cursor : Option Position} {r : Nat} {text : Line}

theorem showsCursor_iff {column k : Nat} : ShowsCursor (some ⟨r, column⟩) r text k ↔
    (k < (shown text).length ∧ column = k) ∨
      (k = (shown text).length ∧ column = text.length) := by
  simp only [ShowsCursor, Option.some.injEq, Position.mk.injEq, Int.natCast_inj, true_and]

theorem not_showsCursor (elsewhere : ∀ p ∈ cursor, p.row ≠ r) (k : Nat) :
    ¬ShowsCursor cursor r text k := by
  rintro (⟨-, same⟩ | ⟨-, same⟩)
  · exact elsewhere _ same rfl
  · exact elsewhere _ same rfl

theorem append_space (t : StyledText) : t.append [' '] .cursor =
    ⟨t.plain ++ [' '], t.spans ++ [⟨t.plain.length, (t.plain.length + 1 : Nat), .cursor⟩]⟩ := rfl

theorem row_of_elsewhere (elsewhere : ∀ p ∈ cursor, p.row ≠ r) (inside : Bool) :
    row cursor inside r text = line ((Comment.spans inside text).map Range.ofSpan) text := by
  cases cursor with
  | none => rfl
  | some p => exact if_neg (elsewhere p rfl)

/-- The cursor is added to the styles of the character on which it is shown. -/
theorem row_styles (valid : ∀ p ∈ cursor, p.row = r → 0 ≤ p.column ∧ p.column ≤ text.length)
    (inside : Bool) :
    let t := row cursor inside r text
    t.plain = shownRow cursor r text ∧ t.Clipped ∧ ∀ k,
      t.stylesAt k = (line ((Comment.spans inside text).map Range.ofSpan) text).stylesAt k ++
        if ShowsCursor cursor r text k then [.cursor] else [] := by
  obtain ⟨plain, clipped, -⟩ := line_styles (Comment.spans inside text) text
  have shorter := length_shown_le text
  by_cases elsewhere : ∀ p ∈ cursor, p.row ≠ r
  · have unpadded : cursor ≠ some ⟨r, text.length⟩ := fun same => elsewhere _ same rfl
    rw [row_of_elsewhere elsewhere, shownRow, if_neg unpadded, List.append_nil]
    refine ⟨plain, clipped, fun k => ?_⟩
    rw [if_neg (not_showsCursor elsewhere k), List.append_nil]
  · push Not at elsewhere
    obtain ⟨⟨_, column⟩, rfl, rfl⟩ := elsewhere
    obtain ⟨nonneg, width⟩ := valid _ rfl rfl
    obtain ⟨column, rfl⟩ := Int.eq_ofNat_of_zero_le nonneg
    have shows : row (some ⟨r, column⟩) inside r text =
        withCursor text column (line ((Comment.spans inside text).map Range.ofSpan) text) :=
      if_pos rfl
    rw [shows]
    generalize line ((Comment.spans inside text).map Range.ofSpan) text = t at plain clipped ⊢
    simp only [showsCursor_iff, shownRow, ← plain] at shorter ⊢
    rcases Nat.lt_or_eq_of_le (Int.ofNat_le.mp width) with before | atEnd
    -- the style is laid on the raw column, even past what is shown
    · have laid : withCursor text column t = t.stylize .cursor column (column + 1 : Nat) :=
        if_pos (Int.ofNat_lt.mpr before)
      have unpadded : (some ⟨r, column⟩ : Option Position) ≠ some ⟨r, text.length⟩ := by
        intro same
        have columns := congrArg Position.column (Option.some.inj same)
        exact Nat.ne_of_lt before (Int.natCast_inj.mp columns)
      rw [laid, plain_stylize, if_neg unpadded, List.append_nil]
      refine ⟨rfl, clipped.stylize _ _, fun k => ?_⟩
      have same : column ≤ k ∧ k < column + 1 ∧ k < t.plain.length ↔
          (k < t.plain.length ∧ column = k) ∨ (k = t.plain.length ∧ column = text.length) := by
        omega
      rw [stylesAt_stylize]
      simp only [same]
    · subst atEnd
      have padded : withCursor text text.length t = t.append [' '] .cursor :=
        if_neg (Int.lt_irrefl _)
      rw [padded, append_space, if_pos rfl]
      refine ⟨rfl, ?_, fun k => ?_⟩
      · intro s mem
        rw [List.length_append]
        rcases List.mem_append.mp mem with old | new
        · have inside := clipped s old
          omega
        · rw [List.mem_singleton.mp new]
          exact ⟨Int.natCast_nonneg _, Int.le_refl _⟩
      · have same :
            StyledSpan.covers ⟨t.plain.length, (t.plain.length + 1 : Nat), .cursor⟩ k = true ↔
              (k < t.plain.length ∧ text.length = k) ∨
                (k = t.plain.length ∧ text.length = text.length) := by
          rw [StyledSpan.covers_iff]
          dsimp only
          omega
        rw [stylesAt_concat]
        simp only [same]

variable (valid : ∀ p ∈ cursor, p.row = r → 0 ≤ p.column ∧ p.column ≤ text.length)
  (inside : Bool) {k : Nat}
include valid

/-- A shown character has the styles that are meant for the column of its number. -/
theorem row_styles_of_lt (inLine : k < (shown text).length) :
    let styles := (row cursor inside r text).stylesAt k
    (∀ c, .category c ∈ styles ↔ ∃ s ∈ Classification.ofLine PatternRule.table text,
      s.category = c ∧ s.span.covers k = true ∧
        ∀ column, s.span.covers column = true → Comment.insideAt inside text column = false) ∧
    (.comment ∈ styles ↔ Comment.insideAt inside text k = true) ∧
    (.cursor ∈ styles ↔ cursor = some ⟨r, k⟩) := by
  have column : k < text.length := Nat.lt_of_lt_of_le inLine (length_shown_le text)
  have shows : ShowsCursor cursor r text k ↔ cursor = some ⟨r, k⟩ := by
    rw [ShowsCursor, and_iff_right inLine]
    exact or_iff_left fun past => Nat.ne_of_lt inLine past.1
  have split : ∀ style, style ∈ (row cursor inside r text).stylesAt k ↔
      style ∈ (line ((Comment.spans inside text).map Range.ofSpan) text).stylesAt k ∨
        (cursor = some ⟨r, k⟩ ∧ style = .cursor) := by
    intro style
    rw [(row_styles valid inside).2.2 k, List.mem_append]
    simp only [shows]
    by_cases here : cursor = some ⟨r, k⟩ <;> simp [here]
  refine ⟨fun c => ?_, ?_, ?_⟩
  · rw [split, category_mem_line_styles inLine, or_iff_left (fun other => nomatch other.2)]
    constructor
    · rintro ⟨s, coded, same, covers⟩
      obtain ⟨mem, free⟩ := mem_codeSpans_iff.mp coded
      obtain ⟨some, within⟩ := Classification.some_and_inside_of_mem_ofLine mem
      exact ⟨s, mem, same, covers, (Comment.clear_iff some within).mp free⟩
    · rintro ⟨s, mem, same, covers, clear⟩
      obtain ⟨some, within⟩ := Classification.some_and_inside_of_mem_ofLine mem
      have free := (Comment.clear_iff some within).mpr clear
      exact ⟨s, mem_codeSpans_iff.mpr ⟨mem, free⟩, same, covers⟩
  · rw [split, comment_mem_line_styles inLine, or_iff_left (fun other => nomatch other.2),
      Comment.insideAt_of_lt column, List.any_eq_true]
  · rw [split, or_iff_right (cursor_not_mem_line_styles inLine), and_iff_left rfl]

/-- Behind the shown characters there is only the space for the cursor. -/
theorem row_styles_of_le (behind : (shown text).length ≤ k) :
    (row cursor inside r text).stylesAt k =
      if k = (shown text).length ∧ cursor = some ⟨r, text.length⟩ then [.cursor] else [] := by
  obtain ⟨plain, clipped, -⟩ := line_styles (Comment.spans inside text) text
  have shows : ShowsCursor cursor r text k ↔
      k = (shown text).length ∧ cursor = some ⟨r, text.length⟩ := by
    rw [ShowsCursor]
    exact or_iff_right fun before => Nat.not_lt.mpr behind before.1
  rw [(row_styles valid inside).2.2 k, clipped.stylesAt_of_le (by rw [plain]; exact behind),
    List.nil_append]
  simp only [shows]

end Row

section Document

variable {d : Document} {cursor : Option Position} (valid : ∀ p ∈ cursor, p.Within d.lines)
include valid

theorem column_of_valid (row : Nat) :
    ∀ p ∈ cursor, p.row = row → 0 ≤ p.column ∧ p.column ≤ (d.lineAt row).length := by
  intro p here same
  have within := valid p here
  have width := within.column_le
  rw [same, Int.toNat_natCast] at width
  exact ⟨within.column_nonneg, width⟩

/-- A document is shown row by row, and its styles are those of its rows. -/
theorem document_styles :
    (document d cursor).plain = joinLines (shownRows cursor d.lines) ∧
      ∀ row < d.lines.length, ∀ k ≤ (shownRow cursor row (d.lineAt row)).length,
        (document d cursor).stylesAt (offset (shownRows cursor d.lines) ⟨row, k⟩) =
          (Highlight.row cursor (Comment.startsInside d.lines row) row
            (d.lineAt row)).stylesAt k := by
  let ts := d.lines.mapIdx fun r text => row cursor (Comment.startsInside d.lines r) r text
  have lineAt : ∀ r (bound : r < d.lines.length), d.lines[r] = d.lineAt r :=
    fun r bound => (List.getD_eq_getElem d.lines [] bound).symm
  have each : ∀ r (bound : r < d.lines.length),
      let t := row cursor (Comment.startsInside d.lines r) r d.lines[r]
      t.plain = shownRow cursor r d.lines[r] ∧ t.Clipped := by
    intro r bound
    rw [lineAt r bound]
    obtain ⟨plain, clipped, -⟩ := row_styles (column_of_valid valid r) _
    exact ⟨plain, clipped⟩
  have plains : ts.map StyledText.plain = shownRows cursor d.lines := by
    rw [shownRows]
    apply List.ext_getElem (by simp [ts])
    intro r _ bound
    have inside : r < d.lines.length := by simpa using bound
    simpa [ts] using (each r inside).1
  have clipped : ∀ t ∈ ts, t.Clipped := by
    intro t mem
    obtain ⟨r, bound, rfl⟩ := List.mem_mapIdx.mp mem
    exact (each r bound).2
  rw [document_eq]
  refine ⟨(plain_join ts).trans (congrArg joinLines plains), fun row bound k width => ?_⟩
  have length : row < ts.length := by simpa [ts] using bound
  have here : ts[row] =
      Highlight.row cursor (Comment.startsInside d.lines row) row (d.lineAt row) := by
    simp [ts, lineAt row bound]
  have fits : k ≤ ts[row].plain.length := by
    rw [here, (row_styles (column_of_valid valid row) _).1]
    exact width
  have joined := stylesAt_join clipped length fits
  rwa [plains, here] at joined

end Document

end Highlight

end LinkerScriptEditor
