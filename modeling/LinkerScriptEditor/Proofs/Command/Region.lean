import LinkerScriptEditor.Proofs.Command.Indentation

/-!
# Indenting a selected region

The selection is kept while the document gets shorter, so its rows need not exist any more when the
region is indented. If the first of them does not, the command is refused. Otherwise the rows that
are left are indented, and the bus and the message tell of all rows of the selection.
-/

namespace LinkerScriptEditor

/-- Memory holds, for any line, its margin with a unit more for each of so many rows. -/
def Workspace.RoomyFor (w : Workspace) (count : Int) : Prop :=
  ∀ line ∈ w.buffer.document.lines,
    (Line.indentation line : Int) + count * w.settings.unit ≤ Margin.capacity

namespace Command

open Traced Workspace

/-- What indenting the rows from the first to the last one comes to. -/
inductive Indented (w : Workspace) (first last : Int) :
    Except Fault KeyResult × Workspace → Prop
  | gone (past : w.buffer.document.lineCount ≤ first) :
    Indented w first last (.error (.rowOutside first w.buffer.document.lastRow), w)
  | refused {fault : Fault} {after : Workspace} (there : first < w.buffer.document.lineCount)
      (limit : fault.IsLimit) (narrow : ¬w.RoomyFor (last - first + 1)) :
    Indented w first last (.error fault, after)
  | told {rows : String} {b : Buffer} (there : first < w.buffer.document.lineCount)
      (written : Numeral.write (last - first + 1) = .ok rows)
      (same : b.document.lineCount = w.buffer.document.lineCount) :
    Indented w first last (.ok (.saying "indent_region" s!"indented {rows} lines"),
      ({ w with buffer := b } : Workspace).emitted "indent.region"
        (.dict [("first", .int first), ("last", .int last)]))

/-- Where there is room, the command gives a result and tells of rows that exist just if the last
row of the region exists. -/
theorem Indented.answers_iff {w : Workspace} {first last : Int}
    {ran : Except Fault KeyResult × Workspace} (indented : Indented w first last ran)
    (le : first ≤ last) (roomy : w.RoomyFor (last - first + 1)) :
    (∃ result, ran.1 = .ok result) ∧ last < ran.2.buffer.document.lineCount ↔
      last < w.buffer.document.lineCount := by
  cases indented with
  | gone past =>
      refine iff_of_false ?_ (by omega)
      rintro ⟨⟨result, answered⟩, -⟩
      cases answered
  | refused there limit narrow => exact absurd roomy narrow
  | told there written same =>
      dsimp only
      rw [buffer_emitted, same]
      exact and_iff_right ⟨_, rfl⟩

variable {w : Workspace} {first last : Nat}

theorem slice_natCast (lines : List Line) {start stop : Nat} (le : start ≤ lines.length) :
    Document.slice lines start stop = (lines.take (min stop lines.length)).drop start := by
  have bounded : Document.bound lines.length (stop : Int) = min stop lines.length := by
    rw [Document.bound, if_neg (Int.not_lt.mpr (Int.natCast_nonneg stop)), Int.toNat_natCast]
  rw [Document.slice, Document.bound_natCast le, bounded]

theorem length_slice {lines : List Line} {start stop : Nat} (le : start ≤ lines.length) :
    (Document.slice lines start stop).length = min stop lines.length - start := by
  rw [slice_natCast lines le, List.length_drop, List.length_take]
  omega

theorem checkRow_of_le {d : Document} (past : d.lineCount ≤ first) :
    d.checkRow first = .error (.rowOutside first d.lastRow) := by
  rw [Document.checkRow, if_neg]
  omega

/-- Rows past the end leave nothing to settle. -/
theorem reindentBounded_of_le {lines : List Line} (ne : lines ≠ []) (past : lines.length ≤ first)
    (style : Indent.Style) (unit : Int) (stop : Nat) :
    Indent.reindentBounded style unit lines first (some stop) = .ok lines := by
  have nonempty := Document.atLeastOne_of_ne_nil ne
  have none : min stop lines.length - first = 0 := by omega
  have rows : Indent.rowsBetween lines.length first (some stop) = [] := by
    simp [Indent.rowsBetween, none]
  rw [Indent.reindentBounded_eq, nonempty, rows]
  rfl

/-- Where there is room no margin of the region is too wide. -/
theorem not_roomyFor_of_refused (unit_pos : 0 < w.settings.unit)
    (there : first < w.buffer.document.lineCount) (le : first ≤ last) {fault : Fault}
    (refused : Indent.reindentBounded w.settings.style w.settings.unit w.buffer.document.lines
      first (some (last + 1 : Nat)) = .error fault) :
    ¬w.RoomyFor ((last : Int) - first + 1) := by
  intro roomy
  have count : ((last + 1 - first : Nat) : Int) = (last : Int) - first + 1 := by omega
  let base := Margin.capacity - ((last : Int) - first + 1) * w.settings.unit
  have above : ∀ row < w.buffer.document.lineCount,
      (Line.indentation (w.buffer.document.lines.getD row []) : Int) ≤ base := by
    intro row lt
    rw [List.getD_eq_getElem?_getD, List.getElem?_eq_getElem lt]
    have room := roomy _ (List.getElem_mem lt)
    simp only [Option.getD_some]
    omega
  have widest := above first there
  have narrow := Indent.capacity_lt_of_reindentBounded_eq_error (Int.le_of_lt unit_pos)
    (by omega) (fun row lt => above row (Nat.lt_trans lt there)) refused
  rw [count] at narrow
  omega

/-- Where there is room the number of rows is short. -/
theorem not_roomyFor_of_long (unit_pos : 0 < w.settings.unit)
    (there : first < w.buffer.document.lineCount) (le : first ≤ last) {fault : Fault}
    (refused : Numeral.write ((last : Int) - first + 1) = .error fault) :
    ¬w.RoomyFor ((last : Int) - first + 1) := by
  intro roomy
  have long := (Numeral.of_write_eq_error refused).2
  have room := roomy _ (List.getElem_mem there)
  have capacity : 0 ≤ Margin.capacity := by decide
  have units : ((last : Int) - first + 1) * 1 ≤ ((last : Int) - first + 1) * w.settings.unit :=
    Int.mul_le_mul_of_nonneg_left unit_pos (by omega)
  omega

/-- The rows that are left are overwritten, and none gets lost. -/
theorem effect_reindentRows_slice {b : Buffer} {lines : List Line}
    (length : lines.length = b.document.lines.length) (there : first < b.document.lines.length)
    (le : first ≤ last) (label : String) :
    ∃ delta after, effect (Buffer.reindentRows first
        (Document.slice lines first (last + 1 : Nat)) label) b = (.ok delta, after) ∧
      after.document.lineCount = b.document.lineCount := by
  have rows : (Document.slice lines first (last + 1 : Nat)).length =
      min (last + 1) b.document.lines.length - first := by
    rw [length_slice (by omega), length]
  have ne : Document.slice lines first (last + 1 : Nat) ≠ [] :=
    List.ne_nil_of_length_pos (by omega)
  have fits : first + (Document.slice lines first (last + 1 : Nat)).length ≤
      b.document.lines.length := by omega
  obtain ⟨delta, after, run, lines, -⟩ := Buffer.effect_reindentRows_of_fits label ne fits
  refine ⟨delta, after, run, ?_⟩
  rw [Document.lineCount, lines, length_splice fits, Document.lineCount]

/-- What is left of the region is indented, unless nothing is. -/
theorem indented_indentRegion (unit_pos : 0 < w.settings.unit)
    (ne : w.buffer.document.lines ≠ []) (le : first ≤ last)
    (region : regionRows w.buffer = ((first : Int), (last : Int))) :
    Indented w first last (effect indentRegion w) := by
  have stop : (last : Int) + 1 = ((last + 1 : Nat) : Int) := rfl
  rw [effect_indentRegion region, stop]
  by_cases there : first < w.buffer.document.lines.length
  · have within : (first : Int) < w.buffer.document.lineCount := Int.ofNat_lt.mpr there
    have before : (Document.atLeastOne w.buffer.document.lines).length =
        w.buffer.document.lines.length := by
      rw [Document.atLeastOne_of_ne_nil ne]
    rcases (Indent.robust_length _).reindentBounded w.settings.style w.settings.unit before first
      (some (last + 1 : Nat)) with ⟨lines, pass, length⟩ | ⟨fault, pass, limit⟩
    · obtain ⟨delta, b, run, same⟩ := effect_reindentRows_slice length there le "indent_region"
      rw [pass]
      dsimp only
      rw [run]
      dsimp only
      cases written : Numeral.write ((last : Int) - first + 1) with
      | ok rows => exact .told within written same
      | error fault =>
          have limit := (Numeral.of_write_eq_error written).1
          exact .refused within limit (not_roomyFor_of_long unit_pos there le written)
    · rw [pass]
      exact .refused within limit (not_roomyFor_of_refused unit_pos there le pass)
  · have past : w.buffer.document.lineCount ≤ first := Nat.le_of_not_lt there
    rw [reindentBounded_of_le ne past]
    dsimp only
    rw [Buffer.effect_reindentRows, checkRow_of_le past]
    exact .gone (Int.ofNat_le.mpr past)

end Command

end LinkerScriptEditor
