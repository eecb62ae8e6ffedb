import LinkerScriptEditor.Proofs.Comment.Shade

/-!
# Spans clear of comments

A comment of a line holds something, unless it goes on over an empty line. So a span that holds
something meets no comment just if no column of the span is inside a comment.
-/

namespace LinkerScriptEditor.Comment

/-- Comments hold something, but for one that goes on over an empty line. -/
theorem some_of_mem_scan {column : Nat} {opened : Option Nat} {text : List Char}
    (before : ∀ start ∈ opened, start < column ∨ start = column ∧ text ≠ []) {s : Span}
    (mem : s ∈ (scan column opened text).1) : s.start < s.stop := by
  fun_induction scan column opened text with
  | case1 column start rest spans inside run ih =>
      rcases List.mem_cons.mp mem with rfl | later
      · have begun := before start rfl
        dsimp only
        omega
      · rw [run] at ih
        exact ih (fun start none => absurd none (Option.not_mem_none start)) later
  | case2 column start c rest other ih =>
      refine ih ?_ mem
      rintro _ ⟨⟩
      have begun := before start rfl
      omega
  | case3 column start =>
      have begun := before start rfl
      rw [List.mem_singleton.mp mem]
      simpa using begun
  | case4 column rest ih =>
      refine ih ?_ mem
      rintro _ ⟨⟩
      omega
  | case5 column c rest other ih =>
      exact ih (fun start none => absurd none (Option.not_mem_none start)) mem
  | case6 => cases mem

theorem some_of_mem_spans {inside : Bool} {line : Line} (filled : line ≠ []) {s : Span}
    (mem : s ∈ spans inside line) : s.start < s.stop := by
  apply some_of_mem_scan _ mem
  cases inside <;> simp [filled]

theorem insideAt_of_lt {inside : Bool} {line : Line} {column : Nat}
    (bound : column < line.length) :
    insideAt inside line column = (spans inside line).any (·.covers column) :=
  if_neg (Nat.not_le_of_lt bound)

/-- A span that holds something meets no comment of its line just if none of its columns is inside a
comment. -/
theorem clear_iff {inside : Bool} {line : Line} {s : Span} (some : s.start < s.stop)
    (within : s.stop ≤ line.length) :
    (∀ r ∈ spans inside line, s.overlaps r = false) ↔
      ∀ column, s.covers column = true → insideAt inside line column = false := by
  constructor
  · intro free column covers
    simp only [Span.covers, Bool.and_eq_true, decide_eq_true_eq] at covers
    rw [insideAt_of_lt (by omega), List.any_eq_false]
    intro r mem here
    have apart := Span.overlaps_eq_false_iff.mp (free r mem)
    simp only [Span.covers, Bool.and_eq_true, decide_eq_true_eq] at here
    omega
  · intro clear r mem
    have filled : line ≠ [] := List.ne_nil_of_length_pos (by omega)
    have comment := some_of_mem_spans filled mem
    refine Bool.eq_false_iff.mpr fun meets => ?_
    rw [Span.overlaps_iff] at meets
    -- two spans that hold something and meet share the later one of their first columns
    have shared : s.covers (max s.start r.start) = true ∧
        r.covers (max s.start r.start) = true := by
      simp only [Span.covers, Bool.and_eq_true, decide_eq_true_eq]
      omega
    have none := clear _ shared.1
    rw [insideAt_of_lt (by omega), List.any_eq_false] at none
    exact none r mem shared.2

end LinkerScriptEditor.Comment
