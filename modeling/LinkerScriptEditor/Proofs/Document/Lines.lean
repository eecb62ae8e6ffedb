import LinkerScriptEditor.Document
import LinkerScriptEditor.Proofs.Limit
import LinkerScriptEditor.Proofs.Text.Pieces

/-!
# Lines of a document

Separated lines are those that a text can be split into: there is at least one, and none holds a
line feed. Putting new lines in the place of rows keeps lines separated, and the rows in front and
behind keep their lines.
-/

namespace LinkerScriptEditor

/-- There is a line, and no line holds a line feed. -/
structure Separated (lines : List Line) : Prop where
  ne_nil : lines ≠ []
  free : ∀ line ∈ lines, '\n' ∉ line

theorem Line.indentation_take_le (count : Nat) (line : Line) :
    Line.indentation (line.take count) ≤ Line.indentation line := by
  rw [Line.indentation, ← List.take_takeWhile, List.length_take]
  exact Nat.min_le_right _ _

variable {lines new : List Line}

theorem separated_splitLines (text : List Char) : Separated (splitLines text) where
  ne_nil := splitOn_ne_nil '\n' text
  free := fun _ mem => not_mem_of_mem_splitOn mem

theorem Separated.splitLines_joinLines (separated : Separated lines) :
    splitLines (joinLines lines) = lines :=
  splitOn_joinWith separated.ne_nil separated.free

theorem Separated.length_pos (separated : Separated lines) : 0 < lines.length :=
  List.length_pos_iff.mpr separated.ne_nil

theorem Separated.getD_free (separated : Separated lines) (row : Nat) :
    '\n' ∉ lines.getD row [] := by
  rw [List.getD_eq_getElem?_getD]
  cases found : lines[row]? with
  | none => exact List.not_mem_nil
  | some line => exact separated.free line (List.mem_of_getElem? found)

theorem Separated.take_free (separated : Separated lines) (row column : Nat) :
    '\n' ∉ (lines.getD row []).take column :=
  fun feed => separated.getD_free row (List.mem_of_mem_take feed)

theorem Separated.drop_free (separated : Separated lines) (row column : Nat) :
    '\n' ∉ (lines.getD row []).drop column :=
  fun feed => separated.getD_free row (List.mem_of_mem_drop feed)

theorem Separated.set (separated : Separated lines) {line : Line} (free : '\n' ∉ line)
    (row : Nat) : Separated (lines.set row line) where
  ne_nil := by
    rw [Ne, List.set_eq_nil_iff]
    exact separated.ne_nil
  free := by
    intro other mem
    rcases List.mem_or_eq_of_mem_set mem with old | rfl
    · exact separated.free other old
    · exact free

/-- A row keeps free of line feeds when it gets another margin. -/
theorem Separated.margin_free (separated : Separated lines) {column : Int} {margin : Line}
    (written : Margin.write column = .ok margin) (row : Nat) :
    '\n' ∉ margin ++ Line.body (lines.getD row []) := by
  intro feed
  rcases List.mem_append.mp feed with left | right
  · exact Margin.not_mem_of_write written left
  · exact separated.getD_free row ((List.dropWhile_sublist _).mem right)

theorem mem_of_mem_dropReturns {line : Line} {c : Char} (mem : c ∈ line.dropReturns) :
    c ∈ line := by
  rw [Line.dropReturns, List.mem_reverse] at mem
  exact List.mem_reverse.mp ((List.dropWhile_sublist _).mem mem)

theorem separated_ofText (text : List Char) : Separated (Document.ofText text).lines where
  ne_nil := by
    rw [Document.ofText, Ne, List.map_eq_nil_iff]
    exact splitOn_ne_nil '\n' text
  free := by
    intro line mem
    obtain ⟨piece, found, rfl⟩ := List.mem_map.mp mem
    intro feed
    exact not_mem_of_mem_splitOn found (mem_of_mem_dropReturns feed)

theorem Separated.splice (separated : Separated lines) (ne : new ≠ [])
    (free : ∀ line ∈ new, '\n' ∉ line) (start stop : Nat) :
    Separated (lines.take start ++ new ++ lines.drop stop) where
  ne_nil := by simp [ne]
  free := by
    intro line mem
    rcases List.mem_append.mp mem with front | behind
    · rcases List.mem_append.mp front with above | here
      · exact separated.free line (List.mem_of_mem_take above)
      · exact free line here
    · exact separated.free line (List.mem_of_mem_drop behind)

namespace Document

theorem bound_natCast {length i : Nat} (le : i ≤ length) : bound length (i : Int) = i := by
  rw [bound, if_neg (Int.not_lt.mpr (Int.natCast_nonneg i)), Int.toNat_natCast,
    Nat.min_eq_left le]

theorem splice_natCast {start stop : Nat} (order : start ≤ stop) (le : stop ≤ lines.length) :
    splice lines start stop new = lines.take start ++ new ++ lines.drop stop := by
  rw [splice, bound_natCast (Nat.le_trans order le), bound_natCast le,
    Nat.max_eq_right order]

theorem atLeastOne_of_ne_nil (ne : lines ≠ []) : atLeastOne lines = lines := by
  rw [atLeastOne, if_neg]
  simpa using ne

theorem atLeastOne_ne_nil (lines : List Line) : atLeastOne lines ≠ [] := by
  cases lines <;> simp [atLeastOne]

theorem getD_atLeastOne (lines : List Line) (row : Nat) :
    (atLeastOne lines).getD row [] = lines.getD row [] := by
  cases lines with
  | nil => cases row <;> rfl
  | cons line lines => rfl

theorem lines_replace (d : Document) (ne : new ≠ []) : (d.replace new).lines = new :=
  atLeastOne_of_ne_nil ne

theorem lines_update {d : Document} {start stop : Nat} (order : start ≤ stop)
    (le : stop ≤ d.lines.length) (ne : new ≠ []) :
    (d.update start stop new).lines = d.lines.take start ++ new ++ d.lines.drop stop := by
  rw [update, splice_natCast order le, lines_replace]
  simp [ne]

/-- What holds of the old lines, of the new ones and of an empty line holds of all lines after an
update. -/
theorem forall_mem_update {d : Document} {P : Line → Prop} (empty : P [])
    (old : ∀ line ∈ d.lines, P line) (others : ∀ line ∈ new, P line) (start stop : Int) :
    ∀ line ∈ (d.update start stop new).lines, P line := by
  intro line mem
  change line ∈ atLeastOne (splice d.lines start stop new) at mem
  rw [atLeastOne] at mem
  split at mem
  · rw [List.mem_singleton.mp mem]
    exact empty
  · rcases List.mem_append.mp mem with front | behind
    · rcases List.mem_append.mp front with above | here
      · exact old line (List.mem_of_mem_take above)
      · exact others line here
    · exact old line (List.mem_of_mem_drop behind)

theorem separated_update {d : Document} (separated : Separated d.lines) (start stop : Int)
    (free : ∀ line ∈ new, '\n' ∉ line) : Separated (d.update start stop new).lines where
  ne_nil := atLeastOne_ne_nil _
  free := forall_mem_update List.not_mem_nil separated.free free start stop

end Document

theorem drop_eq_getD_cons {row : Nat} (bound : row < lines.length) :
    lines.drop row = lines.getD row [] :: lines.drop (row + 1) := by
  rw [List.getD_eq_getElem?_getD, List.getElem?_eq_getElem bound, Option.getD_some,
    List.drop_eq_getElem_cons bound]

/-- Inside the new lines the rows are those of the new lines. -/
theorem getD_splice_inside {start stop row : Nat} (front : start ≤ lines.length)
    (inside : row < new.length) :
    (lines.take start ++ new ++ lines.drop stop).getD (start + row) [] = new.getD row [] := by
  have length : (lines.take start).length = start := List.length_take_of_le front
  rw [List.getD_eq_getElem?_getD, List.append_assoc, List.getElem?_append_right (by omega), length,
    Nat.add_sub_cancel_left, List.getElem?_append_left inside, List.getD_eq_getElem?_getD]

theorem getD_splice_front {start stop row : Nat} (front : start ≤ lines.length)
    (above : row < start) :
    (lines.take start ++ new ++ lines.drop stop).getD row [] = lines.getD row [] := by
  have length : (lines.take start).length = start := List.length_take_of_le front
  rw [List.getD_eq_getElem?_getD, List.append_assoc, List.getElem?_append_left (by omega),
    List.getElem?_take_of_lt above, List.getD_eq_getElem?_getD]

theorem length_splice {start : Nat} (fits : start + new.length ≤ lines.length) :
    (lines.take start ++ new ++ lines.drop (start + new.length)).length = lines.length := by
  simp only [List.length_append, List.length_take, List.length_drop]
  omega

/-- Outside as many new lines as there were rows, every row keeps its line. -/
theorem getD_splice_outside {start row : Nat} (fits : start + new.length ≤ lines.length)
    (outside : row < start ∨ start + new.length ≤ row) :
    (lines.take start ++ new ++ lines.drop (start + new.length)).getD row [] =
      lines.getD row [] := by
  rcases outside with above | below
  · exact getD_splice_front (by omega) above
  · have length : (lines.take start).length = start := List.length_take_of_le (by omega)
    rw [List.getD_eq_getElem?_getD, List.getD_eq_getElem?_getD, List.append_assoc,
      List.getElem?_append_right (by omega), List.getElem?_append_right (by omega), length,
      List.getElem?_drop]
    congr 2
    omega

end LinkerScriptEditor
