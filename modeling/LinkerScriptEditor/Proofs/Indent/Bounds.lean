import LinkerScriptEditor.Proofs.Indent.Units
import LinkerScriptEditor.Proofs.Limit

/-!
# Passes that are refused

A pass over all rows that has to write its margins has the result of a pass without bounds, unless
one of the columns that it obtains is wider than memory. Then it is refused.
-/

namespace LinkerScriptEditor.Indent

variable {style : Style} {unit : Int} {lines : List Line} {row : Nat}

theorem settlePlain_write_of_fits
    (fits : filled lines row = true → (decideRow style lines unit row).column ≤ Margin.capacity) :
    settlePlain Margin.write style unit lines row = .ok (settleRow style unit lines row) := by
  rw [filled, Bool.not_eq_true'] at fits
  rw [settlePlain, linePlain, settleRow, settledLine]
  split
  · rfl
  · next nonempty =>
      have narrow := fits (Bool.eq_false_iff.mpr nonempty)
      rw [Margin.write_eq_ok_iff.mpr ⟨narrow, rfl⟩]
      rfl

theorem settlePlain_write_of_wide (nonempty : filled lines row = true)
    (wide : Margin.capacity < (decideRow style lines unit row).column) :
    ∃ fault, fault.IsLimit ∧ settlePlain Margin.write style unit lines row = .error fault := by
  rw [filled, Bool.not_eq_true'] at nonempty
  rw [settlePlain, linePlain, nonempty, if_neg Bool.false_ne_true]
  cases written : Margin.write (decideRow style lines unit row).column with
  | error fault => exact ⟨fault, (Margin.of_write_eq_error written).1, rfl⟩
  | ok margin =>
      have narrow := (Margin.write_eq_ok_iff.mp written).1
      omega

/-- The row is filled and, on the settled lines, its column is wider than memory. -/
def TooWide (style : Style) (unit : Int) (settled : List Line) (row : Nat) : Prop :=
  filled settled row = true ∧ Margin.capacity < (decideRow style settled unit row).column

/-- Rows are settled, or one of them is too wide. -/
theorem run_foldlM_write (style : Style) (unit : Int) (lines : List Line) (first count : Nat) :
    let settled := (List.range' first count).foldl (settleRow style unit) lines
    let run := (List.range' first count).foldlM (settlePlain Margin.write style unit) lines
    ((∀ row ∈ List.range' first count, ¬TooWide style unit settled row) → run = .ok settled) ∧
      ((∃ row ∈ List.range' first count, TooWide style unit settled row) →
        ∃ fault, fault.IsLimit ∧ run = .error fault) := by
  -- on the rows still to be settled; what they are settled to does not move the rows above them
  induction count generalizing first lines with
  | zero => exact ⟨fun _ => rfl, nofun⟩
  | succ count ih =>
      intro settled run
      have all : Kept (List.range' first (count + 1)) lines settled :=
        kept_foldl_settleRow style unit _ lines
      have here : TooWide style unit settled first ↔ filled lines first = true ∧
          Margin.capacity < (decideRow style lines unit first).column := by
        rw [TooWide, filled_of_map_body all.bodies, all.alike.decideRow_eq style unit]
      have step : run = settlePlain Margin.write style unit lines first >>= fun next =>
          (List.range' (first + 1) count).foldlM (settlePlain Margin.write style unit) next := by
        change (List.range' first (count + 1)).foldlM _ _ = _
        rw [List.range'_succ, List.foldlM_cons]
      have rest := ih (settleRow style unit lines first) (first + 1)
      rw [← List.foldl_cons, ← List.range'_succ] at rest
      simp only [List.range'_succ, List.mem_cons, forall_eq_or_imp, exists_eq_or_imp]
      by_cases wide : TooWide style unit settled first
      · obtain ⟨nonempty, more⟩ := here.mp wide
        obtain ⟨fault, limit, refused⟩ := settlePlain_write_of_wide nonempty more
        rw [step, refused]
        exact ⟨fun narrow => absurd wide narrow.1, fun _ => ⟨fault, limit, rfl⟩⟩
      · rw [step, settlePlain_write_of_fits fun nonempty =>
          Int.not_lt.mp fun more => wide (here.mpr ⟨nonempty, more⟩)]
        exact ⟨fun narrow => rest.1 narrow.2, fun some => rest.2 (some.resolve_left wide)⟩

theorem mem_columns_iff {column : Int} :
    column ∈ columns style unit lines ↔ ∃ row < (Document.atLeastOne lines).length,
      filled (reindent style unit lines 0 none) row = true ∧
        (decideRow style (reindent style unit lines 0 none) unit row).column = column := by
  have bodies := (kept_reindent style unit lines 0 none).bodies
  simp only [columns_eq_map, List.mem_map, List.mem_filter, List.mem_range, and_assoc,
    funext (filled_of_map_body bodies)]

theorem reindentBounded_eq_foldlM (style : Style) (unit : Int) (lines : List Line) (start : Int)
    (stop : Option Int) :
    reindentBounded style unit lines start stop =
      (rowsBetween (Document.atLeastOne lines).length start stop).foldlM
        (settlePlain Margin.write style unit) (Document.atLeastOne lines) := by
  rw [reindentBounded, pass_eq_plain exact_write]

/-- A pass has the result of the pass without bounds, or it is refused for a row that is too wide. -/
theorem reindentBounded_cases (style : Style) (unit : Int) (lines : List Line) (start : Int)
    (stop : Option Int) :
    let rows := rowsBetween (Document.atLeastOne lines).length start stop
    let settled := reindent style unit lines start stop
    let ran := reindentBounded style unit lines start stop
    ((∀ row ∈ rows, ¬TooWide style unit settled row) → ran = .ok settled) ∧
      ((∃ row ∈ rows, TooWide style unit settled row) →
        ∃ fault, fault.IsLimit ∧ ran = .error fault) := by
  intro rows settled ran
  have result : settled = rows.foldl (settleRow style unit) (Document.atLeastOne lines) :=
    reindent_eq_foldl style unit lines start stop
  have run : ran = rows.foldlM (settlePlain Margin.write style unit) (Document.atLeastOne lines) :=
    reindentBounded_eq_foldlM style unit lines start stop
  rw [result, run]
  exact run_foldlM_write style unit _ _ _

/-- With room for all of its columns a pass over all rows has a result. -/
theorem reindentBounded_of_columns
    (fits : ∀ column ∈ columns style unit lines, column ≤ Margin.capacity) :
    reindentBounded style unit lines 0 none = .ok (reindent style unit lines 0 none) := by
  apply (reindentBounded_cases style unit lines 0 none).1
  intro row mem wide
  rw [rowsBetween_all] at mem
  have bound := (List.mem_range'_1.mp mem).2
  have narrow := fits _ (mem_columns_iff.mpr ⟨row, by omega, wide.1, rfl⟩)
  exact absurd wide.2 (Int.not_lt.mpr narrow)

theorem reindentBounded_of_wide {column : Int} (mem : column ∈ columns style unit lines)
    (wide : Margin.capacity < column) :
    ∃ fault, fault.IsLimit ∧ reindentBounded style unit lines 0 none = .error fault := by
  obtain ⟨row, bound, nonempty, rfl⟩ := mem_columns_iff.mp mem
  apply (reindentBounded_cases style unit lines 0 none).2
  refine ⟨row, ?_, nonempty, wide⟩
  rw [rowsBetween_all]
  exact List.mem_range'_1.mpr ⟨Nat.zero_le row, by omega⟩

end LinkerScriptEditor.Indent
