import LinkerScriptEditor.Proofs.Indent.Column
import LinkerScriptEditor.Proofs.Indent.Range

/-!
# How wide a pass makes its rows

Each row that a pass comes to ends at most one unit further than the rows above it, those that the
pass has settled among them. So with every row the pass can get wider by one unit, and it is refused
only if memory does not hold a margin of that width. A pass over all rows meets no row above that it
has not settled itself.
-/

namespace LinkerScriptEditor.Indent

/-- The rows above a row are not wider than the base and one unit for each row from the first on. -/
def Settled (base unit : Int) (first row : Nat) (lines : List Line) : Prop :=
  ∀ above < row, (Line.indentation (lines.getD above []) : Int) ≤
    base + ((above + 1 - first : Nat) : Int) * unit

variable {base unit : Int} {first row : Nat} {lines : List Line}

theorem Settled.set (settled : Settled base unit first row lines) {line : Line}
    (width : (Line.indentation line : Int) ≤ base + ((row + 1 - first : Nat) : Int) * unit) :
    Settled base unit first (row + 1) (lines.set row line) := by
  intro above lt
  rw [List.getD_eq_getElem?_getD, List.getElem?_set]
  by_cases same : row = above
  · subst same
    have nonneg : (0 : Int) ≤ Line.indentation line := Int.natCast_nonneg _
    rw [if_pos rfl]
    split
    · exact width
    · exact Int.le_trans nonneg width
  · rw [if_neg same, ← List.getD_eq_getElem?_getD]
    exact settled above (by omega)

section

variable (nonneg : 0 ≤ unit) (wide : 0 ≤ base + unit) (started : first ≤ row)
include nonneg wide started

/-- There is a unit for the row itself. -/
theorem width_nonneg : 0 ≤ base + ((row + 1 - first : Nat) : Int) * unit := by
  have one : 1 * unit ≤ ((row + 1 - first : Nat) : Int) * unit :=
    Int.mul_le_mul_of_nonneg_right (by omega) nonneg
  omega

/-- The rows above leave to a row at most one unit more than their own. -/
theorem Settled.column_le (settled : Settled base unit first row lines) {column : Int}
    (fromAbove : FromAbove lines.toArray unit row column) :
    column ≤ base + ((row + 1 - first : Nat) : Int) * unit := by
  apply And.right
  apply fromAbove.bounds nonneg (width_nonneg nonneg wide started)
  intro above lt
  rw [Tracker.getD_toArray]
  have width := settled above lt
  have next : (((above + 1 - first : Nat) : Int) + 1) * unit ≤
      ((row + 1 - first : Nat) : Int) * unit :=
    Int.mul_le_mul_of_nonneg_right (by omega) nonneg
  rw [Int.add_mul, Int.one_mul] at next
  omega

/-- One more row is settled, or its margin is too wide. -/
theorem Settled.next (settled : Settled base unit first row lines) (style : Style)
    (t : Tracker) :
    (∃ next after, (settle Margin.write style unit lines row).run t = .ok (next, after) ∧
        Settled base unit first (row + 1) next) ∨
      ∃ fault, (settle Margin.write style unit lines row).run t = .error fault ∧
        Margin.capacity < base + ((row + 1 - first : Nat) : Int) * unit := by
  have fromAbove := fromAbove_decideWith passKey style lines.toArray unit row t
  rw [Indent.run_settle]
  dsimp only
  split
  · exact .inl ⟨_, t, rfl, settled.set (width_nonneg nonneg wide started)⟩
  · rcases decided : (decideWith style (.tracked passKey lines.toArray) lines.toArray unit
      row).run t with ⟨decision, after⟩
    rw [decided] at fromAbove
    have narrow : decision.column ≤ _ := settled.column_le nonneg wide started fromAbove
    cases written : Margin.write decision.column with
    | error fault =>
        have refused := (Margin.of_write_eq_error written).2
        exact .inr ⟨fault, rfl, Int.lt_of_lt_of_le refused narrow⟩
    | ok margin =>
        refine .inl ⟨_, after, rfl, settled.set ?_⟩
        have space := width_nonneg nonneg wide started
        obtain ⟨-, rfl⟩ := Margin.write_eq_ok_iff.mp written
        rw [Margin.ofColumn, Line.indentation_spaces_append_body]
        omega

/-- Row by row a pass gets wider by at most one unit. -/
theorem Settled.capacity_lt (settled : Settled base unit first row lines) {style : Style}
    {count : Nat} {t : Tracker} {fault : Fault}
    (refused : ((List.range' row count).foldlM (settle Margin.write style unit) lines).run t =
      .error fault) :
    Margin.capacity < base + ((row + count - first : Nat) : Int) * unit := by
  -- on the rows still to be settled; the rows above are settled already
  induction count generalizing row lines t with
  | zero => cases refused
  | succ count ih =>
      rw [List.range'_succ, List.foldlM_cons, StateT.run_bind] at refused
      rcases settled.next nonneg wide started style t with
        ⟨next, after, run, deeper⟩ | ⟨_, run, narrow⟩
      · rw [run] at refused
        rw [← Nat.succ_add_eq_add_succ]
        exact ih (Nat.le_succ_of_le started) deeper refused
      · have rows : ((row + 1 - first : Nat) : Int) * unit ≤
            ((row + (count + 1) - first : Nat) : Int) * unit :=
          Int.mul_le_mul_of_nonneg_right (by omega) nonneg
        omega

end

/-- A pass is refused only if memory does not hold what its rows add to the rows above. -/
theorem capacity_lt_of_reindentBounded_eq_error (nonneg : 0 ≤ unit) (wide : 0 ≤ base + unit)
    (above : ∀ above < first, (Line.indentation (lines.getD above []) : Int) ≤ base)
    {style : Style} {stop : Nat} {fault : Fault}
    (refused : reindentBounded style unit lines first (some stop) = .error fault) :
    Margin.capacity < base + ((stop - first : Nat) : Int) * unit := by
  have settled : Settled base unit first first (Document.atLeastOne lines) := by
    intro row lt
    have none : row + 1 - first = 0 := by omega
    rw [none, Int.natCast_zero, Int.zero_mul, Int.add_zero, Document.getD_atLeastOne]
    exact above row lt
  have rows : rowsBetween (Document.atLeastOne lines).length first (some stop) =
      List.range' first (min stop (Document.atLeastOne lines).length - first) := by
    simp [rowsBetween]
  rw [reindentBounded_eq, rows] at refused
  cases run : ((List.range' first (min stop (Document.atLeastOne lines).length - first)).foldlM
      (settle Margin.write style unit) (Document.atLeastOne lines)).run Tracker.fresh with
  | ok result =>
      rw [run] at refused
      cases refused
  | error other =>
      have narrow := settled.capacity_lt nonneg wide (Nat.le_refl first) run
      have fewer : ((first + (min stop (Document.atLeastOne lines).length - first) - first : Nat) :
          Int) * unit ≤ ((stop - first : Nat) : Int) * unit :=
        Int.mul_le_mul_of_nonneg_right (by omega) nonneg
      omega

/-- A pass over all rows keeps their number, or memory does not hold a margin that it needs. -/
theorem reindentBounded_rows (separated : Separated lines) (nonneg : 0 ≤ unit) (style : Style) :
    (∃ result, reindentBounded style unit lines 0 (some lines.length) = .ok result ∧
        result.length = lines.length ∧ Separated result) ∨
      ∃ fault, reindentBounded style unit lines 0 (some lines.length) = .error fault ∧
        fault.IsLimit ∧ Margin.capacity < ((lines.length : Int) - 1) * unit := by
  have nonempty : Document.atLeastOne lines = lines :=
    Document.atLeastOne_of_ne_nil separated.ne_nil
  have before : (Document.atLeastOne lines).length = lines.length ∧
      Separated (Document.atLeastOne lines) := by
    rw [nonempty]
    exact ⟨rfl, separated⟩
  have robust := (robust_length lines.length).and robust_separated
  rcases robust.reindentBounded style unit before 0 (some lines.length) with
    ⟨result, run, kept⟩ | ⟨fault, run, limit⟩
  · exact .inl ⟨result, run, kept⟩
  · refine .inr ⟨fault, run, limit, ?_⟩
    have none : ∀ above < 0, (Line.indentation (lines.getD above []) : Int) ≤ -unit := nofun
    have narrow := capacity_lt_of_reindentBounded_eq_error nonneg (by omega) none run
    rw [Nat.sub_zero] at narrow
    rw [Int.sub_mul, Int.one_mul]
    omega

end LinkerScriptEditor.Indent
