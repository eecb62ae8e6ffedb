import LinkerScriptEditor.Indent.Reindent
import LinkerScriptEditor.Proofs.Document.Lines

/-!
# Passes over a range of rows

Whatever the rows of a pass are, all it does is to clear rows and to give rows other margins. So it
keeps the number of lines and brings no character into them but spaces, and it is refused only for
a margin that is too wide.
-/

namespace LinkerScriptEditor.Indent

variable {style : Style} {unit : Int} {lines : List Line}

/-- Clearing a row and writing a margin keep it. -/
structure Robust (keeps : List Line → Prop) : Prop where
  clear : ∀ lines row, keeps lines → keeps (lines.set row [])
  write : ∀ lines row column margin, Margin.write column = .ok margin → keeps lines →
    keeps (lines.set row (margin ++ Line.body (lines.getD row [])))

variable {keeps : List Line → Prop}

theorem Robust.run_settle (robust : Robust keeps) (before : keeps lines) (row : Nat) (t : Tracker) :
    (∃ next after, (settle Margin.write style unit lines row).run t = .ok (next, after) ∧
        keeps next) ∨
      ∃ fault, (settle Margin.write style unit lines row).run t = .error fault ∧
        fault.IsLimit := by
  rw [Indent.run_settle]
  dsimp only
  split
  · exact .inl ⟨_, t, rfl, robust.clear lines row before⟩
  · generalize (decideWith style (.tracked passKey lines.toArray) lines.toArray unit row).run t =
      decided
    cases written : Margin.write decided.1.column with
    | ok margin => exact .inl ⟨_, decided.2, rfl, robust.write _ _ _ _ written before⟩
    | error fault => exact .inr ⟨fault, rfl, (Margin.of_write_eq_error written).1⟩

theorem Robust.run_foldlM (robust : Robust keeps) (before : keeps lines) (rows : List Nat)
    (t : Tracker) :
    (∃ next after, (rows.foldlM (settle Margin.write style unit) lines).run t =
        .ok (next, after) ∧ keeps next) ∨
      ∃ fault, (rows.foldlM (settle Margin.write style unit) lines).run t = .error fault ∧
        fault.IsLimit := by
  induction rows generalizing lines t with
  | nil => exact .inl ⟨lines, t, rfl, before⟩
  | cons row rest ih =>
      rw [List.foldlM_cons, StateT.run_bind]
      rcases robust.run_settle before row t with ⟨next, after, run, still⟩ | ⟨fault, run, limit⟩
      · rw [run]
        exact ih still after
      · rw [run]
        exact .inr ⟨fault, rfl, limit⟩

theorem reindentBounded_eq (style : Style) (unit : Int) (lines : List Line) (start : Int)
    (stop : Option Int) :
    reindentBounded style unit lines start stop = Prod.fst <$>
      ((rowsBetween (Document.atLeastOne lines).length start stop).foldlM
        (settle Margin.write style unit) (Document.atLeastOne lines)).run Tracker.fresh := rfl

/-- To stop behind the last row is not to stop. -/
theorem reindentBounded_all (ne : lines ≠ []) (style : Style) (unit : Int) :
    reindentBounded style unit lines 0 (some lines.length) =
      reindentBounded style unit lines 0 none := by
  have rows : rowsBetween lines.length 0 (some lines.length) =
      rowsBetween lines.length 0 none := by
    simp [rowsBetween]
  rw [reindentBounded_eq, reindentBounded_eq, Document.atLeastOne_of_ne_nil ne, rows]

/-- A pass keeps what its steps keep, or is refused for a margin. -/
theorem Robust.reindentBounded (robust : Robust keeps) (style : Style) (unit : Int)
    (before : keeps (Document.atLeastOne lines)) (start : Int) (stop : Option Int) :
    (∃ result, Indent.reindentBounded style unit lines start stop = .ok result ∧ keeps result) ∨
      ∃ fault, Indent.reindentBounded style unit lines start stop = .error fault ∧
        fault.IsLimit := by
  rw [reindentBounded_eq]
  rcases robust.run_foldlM before (rowsBetween (Document.atLeastOne lines).length start stop)
    Tracker.fresh with ⟨next, after, run, still⟩ | ⟨fault, run, limit⟩
  · rw [run]
    exact .inl ⟨next, rfl, still⟩
  · rw [run]
    exact .inr ⟨fault, rfl, limit⟩

theorem Robust.and {also : List Line → Prop} (robust : Robust keeps) (other : Robust also) :
    Robust fun lines => keeps lines ∧ also lines where
  clear := fun lines row before => ⟨robust.clear lines row before.1, other.clear lines row before.2⟩
  write := fun lines row column margin written before =>
    ⟨robust.write lines row column margin written before.1,
      other.write lines row column margin written before.2⟩

theorem robust_separated : Robust Separated where
  clear := fun _ row separated => separated.set List.not_mem_nil row
  write := fun _ row _ _ written separated => separated.set (separated.margin_free written row) row

theorem robust_length (count : Nat) : Robust fun lines => lines.length = count where
  clear := fun _ _ same => List.length_set.trans same
  write := fun _ _ _ _ _ same => List.length_set.trans same

/-- A character other than a space stays away. -/
theorem robust_not_mem {c : Char} (ne : c ≠ ' ') :
    Robust fun lines => ∀ line ∈ lines, c ∉ line where
  clear := by
    intro lines row free line mem
    rcases List.mem_or_eq_of_mem_set mem with old | rfl
    · exact free line old
    · exact List.not_mem_nil
  write := by
    intro lines row column margin written free line mem
    rcases List.mem_or_eq_of_mem_set mem with old | rfl
    · exact free line old
    · obtain ⟨-, rfl⟩ := Margin.write_eq_ok_iff.mp written
      intro inside
      rcases List.mem_append.mp inside with left | right
      · exact ne (List.eq_of_mem_replicate left)
      · have inside := (List.dropWhile_sublist _).mem right
        rw [List.getD_eq_getElem?_getD] at inside
        cases found : lines[row]? with
        | none =>
            rw [found] at inside
            cases inside
        | some old =>
            rw [found] at inside
            exact free old (List.mem_of_getElem? found) inside

end LinkerScriptEditor.Indent
