import LinkerScriptEditor.Highlight
import LinkerScriptEditor.Proofs.Classification.Precedence
import LinkerScriptEditor.Proofs.StyledText

/-!
# Comments and code in different styles

A line gets the style of comments on the comments of its row and the style of a category on the
spans that meet none of them. No two spans of a line share a column and no line reaches into the
next one, so no character is shown as a comment and as code, or as code of two kinds. Where the
cursor is makes no difference to this.
-/

namespace LinkerScriptEditor.Highlight

open StyledText

theorem Range.meets_ofSpan (r s : Span) : (ofSpan r).meets s = s.overlaps r := by
  rw [meets, ofSpan, Span.overlaps]
  simp only [Int.ofNat_lt]

theorem mem_codeSpans_iff {comments : List Span} {text : Line} {s : ClassifiedSpan} :
    s ∈ codeSpans (comments.map Range.ofSpan) text ↔
      s ∈ Classification.ofLine PatternRule.table text ∧
        ∀ r ∈ comments, s.span.overlaps r = false := by
  rw [codeSpans, List.mem_filter, List.any_map, Bool.not_eq_true', List.any_eq_false]
  simp only [Function.comp_apply, Range.meets_ofSpan, Bool.not_eq_true]

/-- The styles of the characters of a line, to which the cursor is still to be added. -/
theorem line_styles (comments : List Span) (text : Line) :
    let t := line (comments.map Range.ofSpan) text
    t.plain = shown text ∧ t.Clipped ∧ ∀ i < (shown text).length,
      t.stylesAt i = (comments.filter (·.covers i)).map (fun _ => .comment) ++
        ((codeSpans (comments.map Range.ofSpan) text).filter (·.span.covers i)).map
          fun s => .category s.category := by
  intro t
  let base := comments.foldl (fun t r => t.stylize .comment r.start r.stop) (StyledText.ofLine text)
  have folded : t = (codeSpans (comments.map Range.ofSpan) text).foldl
      (fun t s => t.stylize (.category s.category) s.span.start s.span.stop) base := by
    change line _ text = _
    rw [line, List.foldl_map]
    rfl
  obtain ⟨plain, clipped, styles⟩ :=
    stylize_all (fun _ : Span => .comment) id comments (.ofLine text)
  obtain ⟨whole, inside, all⟩ := stylize_all (fun s : ClassifiedSpan => .category s.category)
    ClassifiedSpan.span (codeSpans (comments.map Range.ofSpan) text) base
  have short : base.plain = shown text := plain
  rw [folded]
  refine ⟨whole.trans plain, inside (clipped (clipped_ofLine text)), fun i bound => ?_⟩
  have commented : base.stylesAt i = (comments.filter (·.covers i)).map fun _ => .comment :=
    styles i bound
  rw [all i (by rwa [short]), commented]

section Line

variable {comments : List Span} {text : Line} {i : Nat} (bound : i < (shown text).length)
include bound

theorem comment_mem_line_styles :
    .comment ∈ (line (comments.map Range.ofSpan) text).stylesAt i ↔
      ∃ r ∈ comments, r.covers i = true := by
  rw [(line_styles comments text).2.2 i bound]
  simp

theorem category_mem_line_styles {c : Category} :
    .category c ∈ (line (comments.map Range.ofSpan) text).stylesAt i ↔
      ∃ s ∈ codeSpans (comments.map Range.ofSpan) text,
        s.category = c ∧ s.span.covers i = true := by
  rw [(line_styles comments text).2.2 i bound]
  simp [and_comm, and_left_comm]

theorem cursor_not_mem_line_styles :
    .cursor ∉ (line (comments.map Range.ofSpan) text).stylesAt i := by
  rw [(line_styles comments text).2.2 i bound]
  simp

end Line

/-- What the styles of one character are to be: those of a comment and of code do not come together,
and code is of one kind only. -/
def Apart (styles : List TextStyle) : Prop :=
  (∀ c, .comment ∈ styles → .category c ∉ styles) ∧ (styles.filter TextStyle.isCategory).length ≤ 1

theorem apart_nil : Apart [] := ⟨fun _ covered => absurd covered List.not_mem_nil, Nat.zero_le 1⟩

/-- The cursor has no say in this. -/
theorem apart_withoutCursor {styles : List TextStyle} :
    Apart (styles.filter (· != .cursor)) ↔ Apart styles := by
  have same : (styles.filter (· != .cursor)).filter TextStyle.isCategory =
      styles.filter TextStyle.isCategory := by
    rw [List.filter_filter]
    refine List.filter_congr fun style _ => ?_
    cases style <;> rfl
  rw [Apart, Apart, same]
  simp [List.mem_filter]

/-- At most one span of a line covers a column. -/
theorem length_covering_le_one {spans : List ClassifiedSpan}
    (ordered : spans.Pairwise fun a b => a.span.stop ≤ b.span.start) (i : Nat) :
    (spans.filter (·.span.covers i)).length ≤ 1 := by
  have both : ∀ s ∈ spans.filter (·.span.covers i), s.span.start ≤ i ∧ i < s.span.stop := by
    intro s mem
    simpa [Span.covers] using (List.mem_filter.mp mem).2
  have inOrder := ordered.filter (·.span.covers i)
  cases covering : spans.filter (·.span.covers i) with
  | nil => exact Nat.zero_le 1
  | cons a rest =>
      cases rest with
      | nil => exact Nat.le_refl 1
      | cons b others =>
          rw [covering] at both inOrder
          have before := List.rel_of_pairwise_cons inOrder List.mem_cons_self
          have first := both a List.mem_cons_self
          have second := both b (List.mem_cons_of_mem a List.mem_cons_self)
          omega

theorem apart_line (comments : List Span) (text : Line) (i : Nat) :
    Apart ((line (comments.map Range.ofSpan) text).stylesAt i) := by
  obtain ⟨plain, clipped, styles⟩ := line_styles comments text
  by_cases bound : i < (shown text).length
  · constructor
    · intro c covered code
      obtain ⟨r, listed, here⟩ := (comment_mem_line_styles bound).mp covered
      obtain ⟨s, coded, -, there⟩ := (category_mem_line_styles bound).mp code
      have free := (mem_codeSpans_iff.mp coded).2 r listed
      simp only [Span.covers, Bool.and_eq_true, decide_eq_true_eq] at here there
      rw [Span.overlaps_eq_false_iff] at free
      omega
    · have all := Classification.pairwise_ofLine
        (fun _ => Classification.separates_of_mem_table) text
      have ordered : (codeSpans (comments.map Range.ofSpan) text).Pairwise
          fun a b => a.span.stop ≤ b.span.start := all.filter _
      have single := length_covering_le_one ordered i
      rw [styles i bound, List.filter_append, List.filter_map, List.filter_map]
      simpa [Function.comp_def, TextStyle.isCategory] using single
  · rw [clipped.stylesAt_of_le (by rw [plain]; exact Nat.le_of_not_lt bound)]
    exact apart_nil

/-- Where the cursor is shown, a space may be added to the line, but no style besides its own. -/
theorem withoutCursor_row (cursor : Option Position) (inside : Bool) (r : Nat) (text : Line) :
    ∃ more, (row cursor inside r text).withoutCursor =
      ⟨shown text ++ more,
        (line ((Comment.spans inside text).map Range.ofSpan) text).withoutCursor.spans⟩ := by
  obtain ⟨plain, -, -⟩ := line_styles (Comment.spans inside text) text
  let t := line ((Comment.spans inside text).map Range.ofSpan) text
  have same : t.withoutCursor = ⟨shown text ++ [], t.withoutCursor.spans⟩ := by
    rw [List.append_nil, ← plain]
    rfl
  cases cursor with
  | none => exact ⟨[], same⟩
  | some p =>
      change ∃ more, (if p.row = r then withCursor text p.column t else t).withoutCursor = _
      split
      · rw [withCursor]
        split
        · exact ⟨[], (withoutCursor_stylize _ _).trans same⟩
        · refine ⟨[' '], ?_⟩
          rw [← plain]
          simp [withoutCursor, append, shown, isHidden, t]
      · exact ⟨[], same⟩

theorem apart_row (cursor : Option Position) (inside : Bool) (r : Nat) (text : Line) :
    (row cursor inside r text).withoutCursor.Clipped ∧
      ∀ i, Apart ((row cursor inside r text).withoutCursor.stylesAt i) := by
  obtain ⟨more, same⟩ := withoutCursor_row cursor inside r text
  obtain ⟨plain, clipped, -⟩ := line_styles (Comment.spans inside text) text
  rw [same]
  constructor
  · intro s mem
    have within := clipped s (List.mem_filter.mp mem).1
    rw [plain] at within
    rw [List.length_append]
    omega
  · intro i
    exact stylesAt_withoutCursor ▸ apart_withoutCursor.mpr (apart_line _ text i)

/-- Each row starts inside a comment or outside as the rows above it say. -/
theorem rows_eq_mapIdx (cursor : Option Position) (inside : Bool) (first : Nat)
    (lines : List Line) :
    rows cursor inside first lines = lines.mapIdx fun r text =>
      row cursor ((lines.take r).foldl Comment.endsInside inside) (first + r) text := by
  induction lines generalizing inside first with
  | nil => rfl
  | cons text rest ih =>
      rw [rows, ih, List.mapIdx_cons]
      refine congrArg _ (congrArg (rest.mapIdx ·) (funext fun r => funext fun other => ?_))
      rw [List.take_succ_cons, List.foldl_cons, Nat.add_assoc, Nat.add_comm 1 r]

theorem document_eq (d : Document) (cursor : Option Position) :
    document d cursor = .join (d.lines.mapIdx fun r text =>
      row cursor (Comment.startsInside d.lines r) r text) := by
  rw [document, rows_eq_mapIdx]
  simp only [Nat.zero_add, Comment.startsInside]

end LinkerScriptEditor.Highlight
