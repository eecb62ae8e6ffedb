import LinkerScriptEditor.Proofs.Indent.Bounds
import LinkerScriptEditor.Proofs.Indent.Closing
import LinkerScriptEditor.Proofs.Indent.Script

/-!
# Nested blocks

A pass moves every line of a script to one unit for each block that it is inside, wherever it was
before. What carries this down the rows is where the walk upward comes to: inside a block one unit
further than its opener, outside of blocks nowhere.
-/

namespace LinkerScriptEditor.Indent

section FromRow

variable {α : Type} {holds : Nat → α → Prop} {row : Nat}

/-- It holds of each entry of the list and the row that the entry is on, from a row on. -/
def FromRow (holds : Nat → α → Prop) (row : Nat) (entries : List α) : Prop :=
  ∀ i x, entries[i]? = some x → holds (row + i) x

theorem fromRow_cons {x : α} {rest : List α} :
    FromRow holds row (x :: rest) ↔ holds row x ∧ FromRow holds (row + 1) rest := by
  constructor
  · intro all
    refine ⟨all 0 x rfl, fun i y found => ?_⟩
    rw [Nat.add_assoc, Nat.add_comm 1 i]
    exact all (i + 1) y found
  · rintro ⟨first, later⟩ i y found
    cases i with
    | zero =>
        cases found
        exact first
    | succ i =>
        rw [Nat.add_comm i 1, ← Nat.add_assoc]
        exact later i y found

theorem fromRow_append {front behind : List α} :
    FromRow holds row (front ++ behind) ↔
      FromRow holds row front ∧ FromRow holds (row + front.length) behind := by
  induction front generalizing row with
  | nil => simp [FromRow]
  | cons x rest ih =>
      rw [List.cons_append, fromRow_cons, ih, fromRow_cons, and_assoc, List.length_cons,
        Nat.add_assoc, Nat.add_comm 1]

end FromRow

section Settled

variable {style : Style} {unit : Int} {settled : List Line} {row : Nat}

/-- The lines hold the texts, each on its row. -/
def Reads (settled : List Line) : Nat → List NestedLine → Prop :=
  FromRow fun row line => Line.body (settled.getD row []) = Line.body line.text

/-- The lines are where their depths put them. -/
def Sits (unit : Int) (settled : List Line) : Nat → List NestedLine → Prop :=
  FromRow fun row line => settled.getD row [] = line.moved unit

/-- The column that the walk upward from a row comes to. -/
def walked (style : Style) (unit : Int) (settled : List Line) (row : Nat) : Int :=
  (Id.run (scanUp style (.pure settled) settled.toArray unit row)).column

/-- There is a row right above, and its indentation is the width. -/
def Under (settled : List Line) (row width : Nat) : Prop :=
  ∃ above, row = above + 1 ∧ Line.indentation (settled.getD above []) = width

section Walk

variable (plain : Plain settled)
include plain

theorem walked_succ_of_braceless (braceless : Braceless (settled.getD row [])) :
    walked style unit settled (row + 1) = walked style unit settled row := by
  rw [walked, run_scanUp_succ_of_plain plain,
    scanRule?_of_neither braceless.closing braceless.opening]
  rfl

theorem walked_succ_of_opens {headed : Bool} (opens : Opens headed (settled.getD row [])) :
    walked style unit settled (row + 1) = Line.indentation (settled.getD row []) + unit := by
  rw [walked, run_scanUp_succ_of_plain plain, scanRule?_of_opening opens.closing opens.opening,
    column_decide]
  dsimp only
  omega

theorem walked_succ_of_closes (closes : Closes (settled.getD row [])) :
    walked style unit settled (row + 1) = Line.indentation (settled.getD row []) - unit := by
  have closing : '}' ∈ settled.getD row [] :=
    (Line.mem_body_iff rfl _).mp (List.mem_of_mem_head? closes.leads)
  rw [walked, run_scanUp_succ_of_plain plain, scanRule?_of_closing closing, column_decide]
  dsimp only
  omega

/-- A row that begins with no brace is put where the walk upward comes to. -/
theorem column_of_unled
    (other : ∀ c ∈ (Line.body (settled.getD row [])).head?, c ≠ '{' ∧ c ≠ '}') :
    (decideRow style settled unit row).column = walked style unit settled row := by
  cases row with
  | zero => rfl
  | succ above =>
      rw [decideRow_succ_of_plain plain, leadingRule?_of_other other]
      rfl

theorem column_of_led_open {width : Nat} (under : Under settled row width)
    (leads : (Line.body (settled.getD row [])).head? = some '{') :
    (decideRow style settled unit row).column = width := by
  obtain ⟨above, rfl, rfl⟩ := under
  rw [decideRow_succ_of_plain plain, leadingRule?_of_opening leads, column_decide]
  dsimp only
  omega

theorem column_of_closes {width : Nat} (under : Under settled row width)
    (closes : Closes (settled.getD row [])) :
    (decideRow style settled unit row).column = width - unit := by
  obtain ⟨above, rfl, rfl⟩ := under
  rw [decideRow_succ_of_plain plain, leadingRule?_of_closing closes.leads, column_decide]
  dsimp only
  omega

end Walk

theorem Braceless.unled {line : Line} (braceless : Braceless line) :
    ∀ c ∈ (Line.body line).head?, c ≠ '{' ∧ c ≠ '}' := by
  rintro c leads
  refine ⟨?_, ?_⟩
  · rintro rfl
    exact head?_body_ne rfl braceless.opening leads
  · rintro rfl
    exact head?_body_ne rfl braceless.closing leads

variable (pos : 0 < unit) (plain : Plain settled) (stable : Stable style unit settled)

include stable in
theorem getD_eq_moved {line : NestedLine} (reads : Line.body (settled.getD row []) =
    Line.body line.text) (filled : Line.body line.text ≠ [])
    (level : (decideRow style settled unit row).column.toNat = (unit * line.depth).toNat) :
    settled.getD row [] = line.moved unit := by
  have nonempty : ¬(Line.body (settled.getD row [])).isEmpty = true := by
    rw [reads, List.isEmpty_iff]
    exact filled
  rw [stable row, settledLine, if_neg nonempty, reads, NestedLine.moved, Line.moveTo,
    Margin.ofColumn, Margin.ofColumn, level]

theorem under_of_eq_moved {line : NestedLine} (sits : settled.getD row [] = line.moved unit) :
    Under settled (row + 1) (unit * line.depth).toNat := by
  refine ⟨row, rfl, ?_⟩
  rw [sits, NestedLine.moved, Line.indentation_moveTo]

include plain stable

/-- Lines without braces go where the walk upward from the first of them comes to. -/
theorem sits_braceless {lines : List Line} {depth : Nat}
    (braceless : ∀ line ∈ lines, Braceless line)
    (reads : Reads settled row (lines.map (NestedLine.mk depth)))
    (level : (walked style unit settled row).toNat = (unit * depth).toNat) :
    Sits unit settled row (lines.map (NestedLine.mk depth)) ∧
      walked style unit settled (row + lines.length) = walked style unit settled row ∧
      (lines ≠ [] → Under settled (row + lines.length) (unit * depth).toNat) := by
  induction lines generalizing row with
  | nil => exact ⟨nofun, rfl, fun ne => absurd rfl ne⟩
  | cons line rest ih =>
      obtain ⟨here, below⟩ := fromRow_cons.mp reads
      have kind := (braceless line List.mem_cons_self).of_body here
      have walk : walked style unit settled (row + 1) = walked style unit settled row :=
        walked_succ_of_braceless plain kind
      have sits : settled.getD row [] = NestedLine.moved unit ⟨depth, line⟩ := by
        apply getD_eq_moved stable here (braceless line List.mem_cons_self).filled
        rw [column_of_unled plain kind.unled, level]
      obtain ⟨others, walks, under⟩ :=
        ih (fun other mem => braceless other (List.mem_cons_of_mem line mem)) below
          (walk ▸ level)
      rw [List.length_cons, Nat.add_comm rest.length 1, ← Nat.add_assoc]
      refine ⟨fromRow_cons.mpr ⟨sits, others⟩, walks.trans walk, fun _ => ?_⟩
      cases rest with
      | nil => exact under_of_eq_moved sits
      | cons next more => exact under (List.cons_ne_nil next more)

include pos

/-- An opener goes where the walk upward comes to, or to its header, and what follows it one unit
further. -/
theorem sits_opener {headed : Bool} {line : NestedLine} (opens : Opens headed line.text)
    (reads : Line.body (settled.getD row []) = Line.body line.text)
    (level : (walked style unit settled row).toNat = (unit * line.depth).toNat)
    (header : headed = true → Under settled row (unit * line.depth).toNat) :
    settled.getD row [] = line.moved unit ∧
      walked style unit settled (row + 1) = unit * (line.depth + 1 : Nat) := by
  have kind := opens.of_body reads
  have sits : settled.getD row [] = line.moved unit := by
    apply getD_eq_moved stable reads opens.filled
    by_cases leads : (Line.body (settled.getD row [])).head? = some '{'
    · rw [column_of_led_open plain (header (kind.header leads)) leads, Int.toNat_natCast]
    · rw [column_of_unled plain, level]
      rintro c found
      refine ⟨?_, ?_⟩
      · rintro rfl
        exact leads found
      · rintro rfl
        exact head?_body_ne rfl kind.closing found
  have width : (Line.indentation (settled.getD row []) : Int) = unit * line.depth := by
    rw [sits, NestedLine.moved, Line.indentation_moveTo]
    exact Int.toNat_of_nonneg (Int.mul_nonneg (Int.le_of_lt pos) (Int.natCast_nonneg _))
  refine ⟨sits, ?_⟩
  rw [walked_succ_of_opens plain kind, width, Int.natCast_succ, Int.mul_add, Int.mul_one]

/-- A closer goes one unit back from the row right above it. -/
theorem sits_closer {line : NestedLine} (closes : Closes line.text)
    (reads : Line.body (settled.getD row []) = Line.body line.text)
    (inside : Under settled row (unit * (line.depth + 1 : Nat)).toNat) :
    settled.getD row [] = line.moved unit ∧
      walked style unit settled (row + 1) = unit * line.depth - unit := by
  have kind := closes.of_body reads
  have outer : 0 ≤ unit * line.depth :=
    Int.mul_nonneg (Int.le_of_lt pos) (Int.natCast_nonneg _)
  have inner : unit * (line.depth + 1 : Nat) = unit * line.depth + unit := by
    rw [Int.natCast_succ, Int.mul_add, Int.mul_one]
  have sits : settled.getD row [] = line.moved unit := by
    apply getD_eq_moved stable reads closes.filled
    rw [column_of_closes plain inside kind]
    omega
  have width : (Line.indentation (settled.getD row []) : Int) = unit * line.depth := by
    rw [sits, NestedLine.moved, Line.indentation_moveTo]
    exact Int.toNat_of_nonneg outer
  refine ⟨sits, ?_⟩
  rw [walked_succ_of_closes plain kind, width]

/-- The lines of a block go to their depths if its last item does. -/
theorem sits_framed {headed : Bool} {depth : Nat} {opener closer : Line} {items : List Line}
    {last : List NestedLine} (opens : Opens headed opener)
    (braceless : ∀ line ∈ items, Braceless line) (closes : Closes closer)
    (ending : ∀ start, Reads settled start last →
      walked style unit settled start = unit * (depth + 1 : Nat) →
      (items ≠ [] → Under settled start (unit * (depth + 1 : Nat)).toNat) →
      Sits unit settled start last ∧
        Under settled (start + last.length) (unit * (depth + 1 : Nat)).toNat)
    (reads : Reads settled row (framed depth opener items last closer))
    (level : (walked style unit settled row).toNat = (unit * depth).toNat)
    (header : headed = true → Under settled row (unit * depth).toNat) :
    let stop := row + (framed depth opener items last closer).length
    Sits unit settled row (framed depth opener items last closer) ∧
      walked style unit settled stop = unit * depth - unit ∧
      Under settled stop (unit * depth).toNat := by
  intro stop
  obtain ⟨openerReads, below⟩ := fromRow_cons.mp reads
  obtain ⟨itemsRead, rest⟩ := fromRow_append.mp below
  rw [List.length_map] at rest
  obtain ⟨lastReads, closerReads⟩ := fromRow_append.mp rest
  obtain ⟨openerSits, inside⟩ := sits_opener pos plain stable opens openerReads level header
  obtain ⟨itemsSit, walk, under⟩ :=
    sits_braceless plain stable braceless itemsRead (congrArg Int.toNat inside)
  obtain ⟨lastSits, above⟩ := ending _ lastReads (walk.trans inside) under
  obtain ⟨closerSits, outside⟩ :=
    sits_closer pos plain stable closes (fromRow_cons.mp closerReads).1 above
  have length : stop = row + 1 + items.length + last.length + 1 := by
    simp only [stop, framed, List.length_cons, List.length_append, List.length_map,
      List.length_nil]
    omega
  rw [length]
  refine ⟨fromRow_cons.mpr ⟨openerSits, fromRow_append.mpr ⟨itemsSit, ?_⟩⟩, outside,
    under_of_eq_moved closerSits⟩
  rw [List.length_map]
  exact fromRow_append.mpr ⟨lastSits, fromRow_cons.mpr ⟨closerSits, nofun⟩⟩

theorem sits_block {headed : Bool} {b : Block} (formed : b.WellFormed headed) {depth : Nat}
    (reads : Reads settled row (b.lines depth))
    (level : (walked style unit settled row).toNat = (unit * depth).toNat)
    (header : headed = true → Under settled row (unit * depth).toNat) :
    let stop := row + (b.lines depth).length
    Sits unit settled row (b.lines depth) ∧
      walked style unit settled stop = unit * depth - unit ∧
      Under settled stop (unit * depth).toNat := by
  induction b generalizing headed depth row with
  | flat opener items last closer =>
      obtain ⟨opens, braceless, ending, closes⟩ := formed
      apply sits_framed pos plain stable opens braceless closes _ reads level header
      intro start lastReads walk _
      have only : ∀ line ∈ [last], Braceless line := by
        intro line mem
        rwa [List.mem_singleton.mp mem]
      obtain ⟨sits, -, under⟩ :=
        sits_braceless plain stable only lastReads (congrArg Int.toNat walk)
      exact ⟨sits, under (List.cons_ne_nil last [])⟩
  | nested opener items inner closer ih =>
      obtain ⟨opens, braceless, ending, closes⟩ := formed
      apply sits_framed pos plain stable opens braceless closes _ reads level header
      intro start innerReads walk under
      have above : (!items.isEmpty) = true →
          Under settled start (unit * (depth + 1 : Nat)).toNat := by
        intro some
        apply under
        rintro rfl
        cases some
      obtain ⟨sits, -, last⟩ := ih ending innerReads (congrArg Int.toNat walk) above
      exact ⟨sits, last⟩

/-- Outside of blocks the walk upward comes to nothing, or to a unit below nothing. -/
theorem sits_script {headed : Bool} {script : Script} (formed : script.WellFormed headed)
    (reads : Reads settled row script.lines) (level : walked style unit settled row ≤ 0)
    (header : headed = true → Under settled row 0) : Sits unit settled row script.lines := by
  have margin : (unit * (0 : Nat)).toNat = 0 := by simp
  have start : ∀ row, walked style unit settled row ≤ 0 →
      (walked style unit settled row).toNat = (unit * (0 : Nat)).toNat := by
    intro row level
    rw [margin, Int.toNat_of_nonpos level]
  induction script generalizing headed row with
  | done => exact nofun
  | line text rest ih =>
      obtain ⟨braceless, below⟩ := formed
      obtain ⟨here, later⟩ := fromRow_cons.mp reads
      have only : ∀ line ∈ [text], Braceless line := by
        intro line mem
        rwa [List.mem_singleton.mp mem]
      obtain ⟨sits, walk, under⟩ := sits_braceless plain stable only
        (fromRow_cons.mpr ⟨here, nofun⟩) (start row level)
      have above := under (List.cons_ne_nil text [])
      rw [margin] at above
      exact fromRow_cons.mpr ⟨(fromRow_cons.mp sits).1,
        ih below later (walk.trans_le level) fun _ => above⟩
  | block b rest ih =>
      obtain ⟨block, below⟩ := formed
      obtain ⟨here, later⟩ := fromRow_append.mp reads
      rw [← margin] at header
      obtain ⟨sits, walk, -⟩ :=
        sits_block pos plain stable block here (start row level) header
      refine fromRow_append.mpr ⟨sits, ih below later ?_ nofun⟩
      rw [walk]
      simp only [Int.natCast_zero, Int.mul_zero]
      omega

end Settled

section Whole

variable {style : Style} {unit : Int} {script : Script}

theorem getD_map_of_getElem? {α β : Type} {f : α → β} {entries : List α} {i : Nat} {x : α}
    (found : entries[i]? = some x) (fallback : β) : (entries.map f).getD i fallback = f x := by
  rw [List.getD_eq_getElem?_getD, List.getElem?_map, found]
  rfl

theorem sits_reindent (style : Style) (pos : 0 < unit) (formed : script.WellFormed false)
    (plain : Plain (script.lines.map NestedLine.text)) :
    Sits unit (reindent style unit (script.lines.map NestedLine.text) 0 none) 0 script.lines := by
  have kept := kept_reindent style unit (script.lines.map NestedLine.text) 0 none
  have settled : Plain (reindent style unit (script.lines.map NestedLine.text) 0 none) :=
    Comment.plain_of_map_body kept.bodies (plain_atLeastOne plain)
  apply sits_script pos settled (stable_reindent style unit _) formed
  · intro i line found
    rw [Nat.zero_add, kept.getD_body, Document.getD_atLeastOne, getD_map_of_getElem? found]
  · exact Int.le_refl 0
  · exact nofun

theorem body_reindent_of_past (style : Style) (unit : Int) {row : Nat}
    (past : script.lines.length ≤ row) :
    Line.body ((reindent style unit (script.lines.map NestedLine.text) 0 none).getD row []) =
      [] := by
  rw [(kept_reindent style unit _ 0 none).getD_body, Document.getD_atLeastOne,
    List.getD_eq_default _ _ (by rwa [List.length_map])]
  rfl

/-- A pass over a script without comments moves every line to its depth. -/
theorem reindent_eq_moved (style : Style) (pos : 0 < unit) (formed : script.WellFormed false)
    (plain : Plain (script.lines.map NestedLine.text)) :
    reindent style unit (script.lines.map NestedLine.text) 0 none =
      Document.atLeastOne (script.lines.map (NestedLine.moved unit)) := by
  have sits := sits_reindent style pos formed plain
  have kept := kept_reindent style unit (script.lines.map NestedLine.text) 0 none
  have rows : ∀ row,
      (reindent style unit (script.lines.map NestedLine.text) 0 none).getD row [] =
        (Document.atLeastOne (script.lines.map (NestedLine.moved unit))).getD row [] := by
    intro row
    rw [Document.getD_atLeastOne]
    cases found : script.lines[row]? with
    | some line =>
        rw [getD_map_of_getElem? found, ← Nat.zero_add row]
        exact sits row line found
    | none =>
        have past := List.getElem?_eq_none_iff.mp found
        rw [stable_reindent style unit _ row, settledLine, body_reindent_of_past style unit past,
          List.getD_eq_default _ _ (by rwa [List.length_map])]
        rfl
  have length : (reindent style unit (script.lines.map NestedLine.text) 0 none).length =
      (Document.atLeastOne (script.lines.map (NestedLine.moved unit))).length := by
    rw [kept.length]
    cases script.lines <;> simp [Document.atLeastOne]
  apply List.ext_getElem length
  intro row left right
  have same := rows row
  rwa [List.getD_eq_getElem _ _ left, List.getD_eq_getElem _ _ right] at same

/-- The columns of the filled rows are those of the depths, but for a unit below nothing. -/
theorem toNat_column_of_moved {settled : List Line} {row : Nat} {line : NestedLine}
    (stable : Stable style unit settled) (moved : settled.getD row [] = line.moved unit)
    (nonempty : filled settled row = true) :
    (decideRow style settled unit row).column.toNat = (unit * line.depth).toNat := by
  have width := congrArg Line.indentation moved
  rw [filled, Bool.not_eq_true'] at nonempty
  rwa [NestedLine.moved, Line.indentation_moveTo, stable row, settledLine, nonempty,
    if_neg Bool.false_ne_true, Margin.ofColumn, Line.indentation_spaces_append_body] at width

theorem filled_of_moved {settled : List Line} {row : Nat} {line : NestedLine}
    (stable : Stable style unit settled) (moved : settled.getD row [] = line.moved unit)
    (deep : 0 < unit * line.depth) : filled settled row = true := by
  have width := congrArg Line.indentation moved
  rw [NestedLine.moved, Line.indentation_moveTo, stable row, settledLine] at width
  rw [filled, Bool.not_eq_true', Bool.eq_false_iff]
  intro blank
  rw [if_pos blank] at width
  change 0 = _ at width
  omega

theorem reindentBounded_script_of_fits (style : Style) (pos : 0 < unit)
    (formed : script.WellFormed false) (plain : Plain (script.lines.map NestedLine.text))
    (fits : ∀ line ∈ script.lines, unit * line.depth ≤ Margin.capacity) :
    reindentBounded style unit (script.lines.map NestedLine.text) 0 none =
      .ok (Document.atLeastOne (script.lines.map (NestedLine.moved unit))) := by
  have sits := sits_reindent style pos formed plain
  have stable := stable_reindent style unit (script.lines.map NestedLine.text)
  have capacity : 0 ≤ Margin.capacity := by decide
  have narrow : ∀ column ∈ columns style unit (script.lines.map NestedLine.text),
      column ≤ Margin.capacity := by
    intro column mem
    obtain ⟨row, -, nonempty, rfl⟩ := mem_columns_iff.mp mem
    cases found : script.lines[row]? with
    | some line =>
        have moved := sits row line found
        rw [Nat.zero_add] at moved
        have width := toNat_column_of_moved stable moved nonempty
        have fit := fits line (List.mem_of_getElem? found)
        omega
    | none =>
        have past := List.getElem?_eq_none_iff.mp found
        rw [filled, body_reindent_of_past style unit past] at nonempty
        cases nonempty
  rw [reindentBounded_of_columns narrow, reindent_eq_moved style pos formed plain]

theorem reindentBounded_script_of_wide (style : Style) (pos : 0 < unit)
    (formed : script.WellFormed false) (plain : Plain (script.lines.map NestedLine.text))
    {line : NestedLine} (mem : line ∈ script.lines)
    (wide : Margin.capacity < unit * line.depth) :
    ∃ fault, fault.IsLimit ∧
      reindentBounded style unit (script.lines.map NestedLine.text) 0 none = .error fault := by
  have stable := stable_reindent style unit (script.lines.map NestedLine.text)
  have capacity : 0 ≤ Margin.capacity := by decide
  obtain ⟨row, found⟩ := List.getElem?_of_mem mem
  have moved := sits_reindent style pos formed plain row line found
  rw [Nat.zero_add] at moved
  have nonempty := filled_of_moved stable moved (by omega)
  have width := toNat_column_of_moved stable moved nonempty
  have bound : row < (Document.atLeastOne (script.lines.map NestedLine.text)).length := by
    have inside := (List.getElem?_eq_some_iff.mp found).1
    rwa [Document.atLeastOne_of_ne_nil (List.ne_nil_of_mem (List.mem_map_of_mem mem)),
      List.length_map]
  apply reindentBounded_of_wide (mem_columns_iff.mpr ⟨row, bound, nonempty, rfl⟩)
  omega

/-- Nested blocks get a unit of spaces for each block around a line. If memory does not hold one of
these margins, the pass is refused. -/
theorem reindent_nested (style : Style) {unit : Int} (pos : 0 < unit) {script : Script}
    (formed : script.WellFormed false) (plain : Plain (script.lines.map NestedLine.text)) :
    let ran := reindentBounded style unit (script.lines.map NestedLine.text) 0 none
    ((∀ line ∈ script.lines, unit * line.depth ≤ Margin.capacity) →
      ran = .ok (Document.atLeastOne (script.lines.map fun line =>
        Line.spaces (unit * line.depth).toNat ++ Line.body line.text))) ∧
    ((∃ line ∈ script.lines, Margin.capacity < unit * line.depth) →
      ∃ fault, fault.IsLimit ∧ ran = .error fault) := by
  intro ran
  constructor
  · exact reindentBounded_script_of_fits style pos formed plain
  · rintro ⟨line, mem, wide⟩
    exact reindentBounded_script_of_wide style pos formed plain mem wide

/-- Below its header a brace may stand on a line of its own, and an inner block comes last. -/
theorem reindent_nested_headers :
    let inner := Block.flat "\x7b".toList ["\t\tx".toList] "y".toList "   \x7d".toList
    let outer := Block.nested "a \x7b".toList ["      b".toList, "c".toList] inner "\x7d".toList
    let script := Script.line " h".toList (.block outer (.line "z".toList .done))
    script.WellFormed false ∧ Plain (script.lines.map NestedLine.text) ∧
      (∀ line ∈ script.lines, 2 * (line.depth : Int) ≤ Margin.capacity) ∧
      reindentBounded .commentAware 2 (script.lines.map NestedLine.text) 0 none =
        .ok (["h", "a \x7b", "  b", "  c", "  \x7b", "    x", "    y", "  \x7d", "\x7d", "z"].map
          String.toList) := by
  intro inner outer script
  have formed : script.WellFormed false := by decide +kernel
  have plain : Plain (script.lines.map NestedLine.text) := by decide +kernel
  have fits : ∀ line ∈ script.lines, 2 * (line.depth : Int) ≤ Margin.capacity := by decide
  refine ⟨formed, plain, fits, ?_⟩
  have two : (0 : Int) < 2 := by decide
  exact ((reindent_nested .commentAware two formed plain).1 fits).trans
    (congrArg Except.ok (by decide +kernel))

/-- No memory holds a margin of 10 ^ 20 spaces, so not even a block of one line is moved. -/
theorem reindent_refused_of_wide_unit :
    let unit : Int := 100000000000000000000
    let script := Script.block (.flat "a \x7b".toList [] "x".toList "\x7d".toList) .done
    script.WellFormed false ∧ Plain (script.lines.map NestedLine.text) ∧
      ∃ fault, reindentBounded .faithful unit (script.lines.map NestedLine.text) 0 none =
        .error fault := by
  intro unit script
  have formed : script.WellFormed false := by decide
  have plain : Plain (script.lines.map NestedLine.text) := by decide
  have inside : ⟨1, "x".toList⟩ ∈ script.lines :=
    List.mem_cons_of_mem _ List.mem_cons_self
  have pos : 0 < unit := by decide
  obtain ⟨fault, -, refused⟩ :=
    reindentBounded_script_of_wide .faithful pos formed plain inside (by decide)
  exact ⟨formed, plain, fault, refused⟩

end Whole

end LinkerScriptEditor.Indent
