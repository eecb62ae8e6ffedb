import LinkerScriptEditor.Text.Line

/-!
# Pieces between separators

No piece holds the separator, and text without a separator that is put behind a text makes its
last piece longer. What the pieces hold comes from the text, and the other way round but for the
separator.
-/

namespace LinkerScriptEditor

variable {separator : Char}

theorem not_mem_of_mem_splitOn {text piece : List Char} (mem : piece ∈ splitOn separator text) :
    separator ∉ piece := by
  induction text generalizing piece with
  | nil =>
      obtain rfl : piece = [] := by simpa [splitOn] using mem
      exact List.not_mem_nil
  | cons c rest ih =>
      rw [splitOn] at mem
      split at mem
      · rcases List.mem_cons.mp mem with rfl | later
        · exact List.not_mem_nil
        · exact ih later
      · next other =>
          cases pieces : splitOn separator rest with
          | nil => exact absurd pieces (splitOn_ne_nil separator rest)
          | cons first others =>
              rw [pieces] at mem
              rcases List.mem_cons.mp mem with rfl | later
              · have inner : separator ∉ first := ih (by simp [pieces])
                simpa [Ne.symm other] using inner
              · exact ih (by simp [pieces, later])

theorem mem_of_mem_splitOn {text piece : List Char} (mem : piece ∈ splitOn separator text)
    {c : Char} (inside : c ∈ piece) : c ∈ text := by
  induction text generalizing piece with
  | nil =>
      obtain rfl : piece = [] := by simpa [splitOn] using mem
      exact inside
  | cons first rest ih =>
      rw [splitOn] at mem
      split at mem
      · rcases List.mem_cons.mp mem with rfl | later
        · cases inside
        · exact List.mem_cons_of_mem first (ih later inside)
      · cases pieces : splitOn separator rest with
        | nil => exact absurd pieces (splitOn_ne_nil separator rest)
        | cons next others =>
            rw [pieces] at ih mem
            rcases List.mem_cons.mp mem with rfl | later
            · rcases List.mem_cons.mp inside with rfl | further
              · exact List.mem_cons_self
              · exact List.mem_cons_of_mem first (ih List.mem_cons_self further)
            · exact List.mem_cons_of_mem first (ih (List.mem_cons_of_mem next later) inside)

theorem mem_joinWith {pieces : List (List Char)} {c : Char}
    (mem : c ∈ joinWith separator pieces) : c = separator ∨ ∃ piece ∈ pieces, c ∈ piece := by
  induction pieces with
  | nil => cases mem
  | cons piece rest ih =>
      cases rest with
      | nil => exact .inr ⟨piece, List.mem_cons_self, mem⟩
      | cons next others =>
          rcases List.mem_append.mp mem with here | behind
          · exact .inr ⟨piece, List.mem_cons_self, here⟩
          · rcases List.mem_cons.mp behind with between | further
            · exact .inl between
            · apply (ih further).imp_right
              rintro ⟨other, later, inside⟩
              exact ⟨other, List.mem_cons_of_mem piece later, inside⟩

theorem splitOn_append_of_not_mem (text : List Char) {tail : List Char} (free : separator ∉ tail) :
    splitOn separator (text ++ tail) =
      (splitOn separator text).dropLast ++ [(splitOn separator text).getLastD [] ++ tail] := by
  induction text with
  | nil => exact splitOn_of_not_mem free
  | cons c rest ih =>
      cases pieces : splitOn separator rest with
      | nil => exact absurd pieces (splitOn_ne_nil separator rest)
      | cons first others =>
          rw [pieces] at ih
          rw [List.cons_append, splitOn, splitOn, ih, pieces]
          split
          · rfl
          · cases others with
            | nil => rfl
            | cons next more => rfl

theorem getLastD_splitOn_append (text : List Char) {tail : List Char} (free : separator ∉ tail) :
    (splitOn separator (text ++ tail)).getLastD [] =
      (splitOn separator text).getLastD [] ++ tail := by
  rw [splitOn_append_of_not_mem text free, List.getLastD_concat]

/-- Pieces that are joined can be cut inside any of them. -/
theorem joinWith_cut (separator : Char) (front : List (List Char)) (left right : List Char)
    (behind : List (List Char)) :
    joinWith separator (front ++ (left ++ right) :: behind) =
      joinWith separator (front ++ [left]) ++ joinWith separator (right :: behind) := by
  induction front with
  | nil => cases behind <;> simp [joinWith]
  | cons piece rest ih =>
      cases rest with
      | nil => cases behind <;> simp [joinWith]
      | cons next others =>
          simp only [List.cons_append, joinWith, List.append_assoc] at ih ⊢
          rw [ih]

/-- Pieces may be joined before they are joined with those around them. -/
theorem joinWith_join {pieces : List (List Char)} (ne : pieces ≠ [])
    (front behind : List (List Char)) :
    joinWith separator (front ++ pieces ++ behind) =
      joinWith separator (front ++ joinWith separator pieces :: behind) := by
  induction pieces generalizing front with
  | nil => exact absurd rfl ne
  | cons piece rest ih =>
      cases rest with
      | nil => simp [joinWith]
      | cons next others =>
          have inner := ih (by simp) (front ++ [piece])
          have cut := joinWith_cut separator front piece []
            (joinWith separator (next :: others) :: behind)
          rw [List.append_nil] at cut
          rw [joinWith, joinWith_cut, joinWith_cons_cons]
          simp only [List.append_assoc, List.cons_append, List.nil_append, joinWith] at inner cut ⊢
          rw [inner, cut]

end LinkerScriptEditor
