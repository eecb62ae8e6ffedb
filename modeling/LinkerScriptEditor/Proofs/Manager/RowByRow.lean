import LinkerScriptEditor.Proofs.Command.RowByRow
import LinkerScriptEditor.Proofs.Manager.Repeating

/-!
# Pressing tab on row after row

The tab key is pressed on the rows of a region, from the first to the last one, and in the end the
text is what the command for the region makes of it. On the way every press sees the rows above it
as the presses before have left them, and so does every step of the one pass. A margin that memory
does not hold stops either of them with the same fault, but only the rows above that row have been
moved by then, by the one key press after the other.
-/

namespace LinkerScriptEditor

open Traced

namespace Manager

open Command

/-- The linker script mode is active with its own keymap, and no keys are pending. -/
structure Idle (m : Manager) : Prop where
  installed : m.Installed
  pending : m.workspace.activeMode?.map ModeState.pending = some []

/-- The host moves the cursor to a row, and then a key is pressed. -/
def pressOn (key : KeyPress) (column : Nat → Int) (m : Manager) (row : Nat) : Manager :=
  Step.perform (.press key) (Step.perform (.moveCursor ⟨row, column row⟩) m)

/-- A key is pressed on row after row. -/
def pressOnAll (key : KeyPress) (column : Nat → Int) (rows : List Nat) (m : Manager) : Manager :=
  rows.foldl (pressOn key column) m

variable {m : Manager} {key : KeyPress} {column : Nat → Int} {row : Nat}

theorem idle_ofBuffer (b : Buffer) (s : Settings) : (ofBuffer b s).Idle := by
  refine ⟨installed_ofBuffer b s, ?_⟩
  rw [ofBuffer_eq]
  rfl

theorem Idle.moveCursor (idle : m.Idle) (p : Position) :
    (Step.perform (.moveCursor p) m).Idle :=
  ⟨idle.installed.congr rfl rfl, idle.pending⟩

/-- The tab key indents the line of the cursor, and then no keys are pending. -/
theorem Idle.press_tab (idle : m.Idle) (tab : key.token = "TAB") :
    ∃ outcome after, effect (press key) m = (outcome, after) ∧
      (outcome, after.workspace.buffer) =
        planLine.follow m.workspace.settings m.workspace.buffer ∧
      after.workspace.settings = m.workspace.settings ∧ after.Idle := by
  have installed := idle.installed
  obtain ⟨a, runs, same⟩ := runs?_tab installed.keymap idle.pending tab
  have mem := LinkerScriptMode.mem_indentLine
  have pressed := effect_press_of_id installed.inMode installed.listed runs mem same
  have invokes : m.Invokes "indent.line" _ _ := .pressed runs same pressed
  obtain ⟨still, settings⟩ := invokes.kept installed mem
  refine ⟨_, _, pressed, invokes.eq_follow installed mem follows_indentLine, settings, still, ?_⟩
  have frame := (mild_indentLine (w := (m.pend []).workspace)).worked.frame
  dsimp only
  rw [Workspace.activeMode?, frame.modes, frame.active, ← Workspace.activeMode?,
    installed.inMode.activeMode?_pend]
  rfl

/-- A row is settled, or its margin is refused and the text stays. -/
theorem Idle.pressOn_tab (idle : m.Idle) (tab : key.token = "TAB") (column : Nat → Int)
    (filled : Line.body (m.workspace.buffer.document.lineAt row) ≠ [])
    (bound : row < m.workspace.buffer.document.lines.length) :
    (pressOn key column m row).Idle ∧
      (pressOn key column m row).workspace.settings = m.workspace.settings ∧
      match Indent.settlePlain Margin.write m.workspace.settings.style m.workspace.settings.unit
        m.workspace.buffer.document.lines row with
      | .ok lines => (pressOn key column m row).workspace.buffer.document.lines = lines
      | .error fault =>
        (press key (Step.perform (.moveCursor ⟨row, column row⟩) m)).outcome = .error fault ∧
          (pressOn key column m row).workspace.buffer.text = m.workspace.buffer.text := by
  let moved := Step.perform (.moveCursor ⟨row, column row⟩) m
  obtain ⟨outcome, after, pressed, came, settings, still⟩ :=
    (idle.moveCursor ⟨row, column row⟩).press_tab tab
  have followed := follow_planLine (s := m.workspace.settings) (b := moved.workspace.buffer) rfl
    filled bound
  have left : pressOn key column m row = after := congrArg Prod.snd pressed
  rw [left, outcome_eq, pressed]
  refine ⟨still, settings, ?_⟩
  have lines : m.workspace.buffer.document.lines = moved.workspace.buffer.document.lines := rfl
  rw [lines]
  cases settled : Indent.settlePlain Margin.write m.workspace.settings.style
    m.workspace.settings.unit moved.workspace.buffer.document.lines row with
  | error fault =>
      rw [settled] at followed
      obtain ⟨refused, buffer⟩ := Prod.mk.inj (came.trans followed)
      have text : after.workspace.buffer.text = moved.workspace.buffer.text :=
        congrArg Buffer.text buffer
      exact ⟨refused, text⟩
  | ok lines =>
      rw [settled] at followed
      have buffer : after.workspace.buffer = _ := congrArg Prod.snd came
      rw [buffer]
      exact followed

/-- The manager comes from another by the tab key on some rows, each of which has been settled. -/
structure Turned (m : Manager) (rows : List Nat) (after : Manager) : Prop where
  idle : after.Idle
  settings : after.workspace.settings = m.workspace.settings
  run : rows.foldlM (Indent.settlePlain Margin.write m.workspace.settings.style
    m.workspace.settings.unit) m.workspace.buffer.document.lines =
      .ok after.workspace.buffer.document.lines
  bodies : after.workspace.buffer.document.lines.map Line.body =
    m.workspace.buffer.document.lines.map Line.body

/-- Memory does not hold the margin that is decided for a row. -/
def Wide (row : Nat) (m : Manager) : Prop :=
  Margin.capacity < (decided m.workspace row).column

section Turned

variable {rows : List Nat} {before : Manager}
  (filled : ∀ line ∈ m.workspace.buffer.document.lines, Line.body line ≠ [])
  (turned : Turned m rows before) (bound : row < m.workspace.buffer.document.lines.length)
include filled turned bound

/-- The row is still there, and it still has its content. -/
theorem Turned.there :
    row < before.workspace.buffer.document.lines.length ∧
      Line.body (before.workspace.buffer.document.lineAt row) ≠ [] := by
  constructor
  · rw [← List.length_map Line.body, turned.bodies, List.length_map]
    exact bound
  · rw [Document.lineAt, Indent.body_getD_of_map_body turned.bodies,
      List.getD_eq_getElem _ [] bound]
    exact filled _ (List.getElem_mem bound)

theorem Turned.settlePlain_eq :
    Indent.settlePlain Margin.write m.workspace.settings.style m.workspace.settings.unit
        before.workspace.buffer.document.lines row =
      (Margin.write (decided before.workspace row).column).map fun margin =>
        before.workspace.buffer.document.lines.set row
          (margin ++ Line.body (before.workspace.buffer.document.lineAt row)) := by
  rw [decided, turned.settings]
  exact Indent.settlePlain_of_filled (turned.there filled bound).2

/-- A margin that memory holds is written, and the next row is settled. -/
theorem Turned.next (tab : key.token = "TAB") (column : Nat → Int) (narrow : ¬Wide row before) :
    Turned m (rows ++ [row]) (pressOn key column before row) := by
  obtain ⟨there, content⟩ := turned.there filled bound
  obtain ⟨idle, settings, came⟩ := turned.idle.pressOn_tab tab column content there
  have written : Margin.write (decided before.workspace row).column = _ :=
    Margin.write_eq_ok_iff.mpr ⟨Int.not_lt.mp narrow, rfl⟩
  have settled := turned.settlePlain_eq filled bound
  rw [written] at settled
  rw [turned.settings, settled] at came
  refine ⟨idle, settings.trans turned.settings, ?_, ?_⟩
  · rw [List.foldlM_append, turned.run, came]
    exact (bind_pure _).trans settled
  · rw [came, ← turned.bodies]
    exact Indent.map_body_set ((Line.body_spaces_append _ _).trans (Line.body_body _))

/-- A margin that memory does not hold is refused, by the key and by a pass. -/
theorem Turned.refused (tab : key.token = "TAB") (column : Nat → Int) (wide : Wide row before) :
    ∃ fault, fault.IsLimit ∧
      (press key (Step.perform (.moveCursor ⟨row, column row⟩) before)).outcome = .error fault ∧
      (pressOn key column before row).workspace.buffer.text = before.workspace.buffer.text ∧
      ∀ rest, (rows ++ row :: rest).foldlM (Indent.settlePlain Margin.write
        m.workspace.settings.style m.workspace.settings.unit)
          m.workspace.buffer.document.lines = .error fault := by
  obtain ⟨there, content⟩ := turned.there filled bound
  obtain ⟨-, -, came⟩ := turned.idle.pressOn_tab tab column content there
  have settled := turned.settlePlain_eq filled bound
  cases written : Margin.write (decided before.workspace row).column with
  | ok margin =>
      have narrow := (Margin.write_eq_ok_iff.mp written).1
      exact absurd wide (Int.not_lt.mpr narrow)
  | error fault =>
      rw [written] at settled
      rw [turned.settings, settled] at came
      refine ⟨fault, (Margin.of_write_eq_error written).1, came.1, came.2, ?_⟩
      intro rest
      have stops : (row :: rest).foldlM (Indent.settlePlain Margin.write
          m.workspace.settings.style m.workspace.settings.unit)
            before.workspace.buffer.document.lines = .error fault := by
        rw [List.foldlM_cons, settled]
        rfl
      rw [List.foldlM_append, turned.run]
      exact stops

end Turned

/-- The manager when it is a row's turn. -/
def turn (key : KeyPress) (column : Nat → Int) (first : Nat) (m : Manager) (row : Nat) : Manager :=
  pressOnAll key column (List.range' first (row - first)) m

/-- As long as no margin is too wide, the rows are settled one after the other. -/
theorem Idle.turned (idle : m.Idle) (tab : key.token = "TAB") {first count : Nat}
    (filled : ∀ line ∈ m.workspace.buffer.document.lines, Line.body line ≠ [])
    (bound : first + count ≤ m.workspace.buffer.document.lines.length)
    (narrow : ∀ row ∈ List.range' first count, ¬Wide row (turn key column first m row)) :
    Turned m (List.range' first count) (turn key column first m (first + count)) := by
  -- on the number of rows; a press sees the lines that a pass has come to by then
  induction count with
  | zero =>
      have none : turn key column first m first = m := by
        rw [turn, Nat.sub_self]
        rfl
      rw [Nat.add_zero, none]
      exact ⟨idle, rfl, rfl, rfl⟩
  | succ count ih =>
      rw [List.range'_1_concat] at narrow ⊢
      obtain ⟨narrow, last⟩ := List.forall_mem_append.mp narrow
      have next : turn key column first m (first + (count + 1)) =
          pressOn key column (turn key column first m (first + count)) (first + count) := by
        rw [turn, turn, Nat.add_sub_cancel_left, Nat.add_sub_cancel_left, List.range'_1_concat,
          pressOnAll, List.foldl_append]
        rfl
      rw [next]
      exact (ih (by omega) narrow).next filled (by omega) tab column
        (last _ (List.mem_singleton_self _))

/-- The rows that a selection covers, whichever of its ends comes first, or all rows. -/
inductive Covers (lines : List Line) : Option Selection → Nat → Nat → Prop
  | all {last : Nat} (count : lines.length = last + 1) : Covers lines none 0 last
  | selected {s : Selection} {first last : Nat} (anchor : s.anchor.Within lines)
      (point : s.point.Within lines) (start : (first : Int) = min s.anchor.row s.point.row)
      (stop : (last : Int) = max s.anchor.row s.point.row) : Covers lines (some s) first last

theorem Covers.rows {b : Buffer} {first last : Nat}
    (covers : Covers b.document.lines b.selection first last) :
    regionRows b = ((first : Int), (last : Int)) ∧ first ≤ last ∧
      last < b.document.lines.length := by
  rw [regionRows]
  cases selection : b.selection with
  | none =>
      rw [selection] at covers
      cases covers with
      | all count =>
          refine ⟨?_, Nat.zero_le _, by omega⟩
          rw [Document.lastRow, Document.lineCount, count]
          simp
  | some s =>
      rw [selection] at covers
      cases covers with
      | selected anchor point start stop =>
          have anchorRow := anchor.row_lt
          have pointRow := point.row_lt
          refine ⟨?_, by omega, by omega⟩
          rw [start, stop]
          rfl

section Region

variable {first last : Nat} {outcome : Except Fault KeyResult} {after : Manager}
  (idle : m.Idle) (tab : key.token = "TAB") (column : Nat → Int)
  (filled : ∀ line ∈ m.workspace.buffer.document.lines, Line.body line ≠ [])
  (covers : Covers m.workspace.buffer.document.lines m.workspace.buffer.selection first last)
  (region : m.Invokes "indent.region" outcome after)
include idle tab filled covers region

theorem Idle.text_of_narrow
    (narrow : ∀ row ∈ List.range' first (last + 1 - first),
      ¬Wide row (turn key column first m row)) :
    after.workspace.buffer.text =
      (pressOnAll key column (List.range' first (last + 1 - first)) m).workspace.buffer.text := by
  obtain ⟨rows, le, there⟩ := covers.rows
  have total : first + (last + 1 - first) = last + 1 := by omega
  have turned := idle.turned tab filled (by omega) narrow
  rw [total] at turned
  have followed := follow_planRegion (s := m.workspace.settings) rows le there
  rw [turned.run] at followed
  have came : after.workspace.buffer = _ := congrArg Prod.snd
    (region.eq_follow idle.installed LinkerScriptMode.mem_indentRegion follows_indentRegion)
  rw [came]
  exact congrArg joinLines followed

theorem Idle.refused_of_wide (mem : row ∈ List.range' first (last + 1 - first))
    (wide : Wide row (turn key column first m row))
    (narrow : ∀ earlier ∈ List.range' first (last + 1 - first), earlier < row →
      ¬Wide earlier (turn key column first m earlier)) :
    ∃ fault, fault.IsLimit ∧ outcome = .error fault ∧
      after.workspace.buffer = m.workspace.buffer ∧
      (press key (Step.perform (.moveCursor ⟨row, column row⟩)
        (turn key column first m row))).outcome = .error fault ∧
      (pressOn key column (turn key column first m row) row).workspace.buffer.text =
        (turn key column first m row).workspace.buffer.text := by
  obtain ⟨rows, le, there⟩ := covers.rows
  obtain ⟨started, stopped⟩ := List.mem_range'_1.mp mem
  obtain ⟨count, rfl⟩ := Nat.exists_eq_add_of_le started
  have bound : first + count < m.workspace.buffer.document.lines.length := by omega
  have above : ∀ earlier ∈ List.range' first count,
      ¬Wide earlier (turn key column first m earlier) := by
    intro earlier before
    have bounds := List.mem_range'_1.mp before
    exact narrow earlier (List.mem_range'_1.mpr (by omega)) bounds.2
  have turned := idle.turned tab filled (Nat.le_of_lt bound) above
  obtain ⟨fault, limit, pressed, text, refused⟩ :=
    turned.refused filled bound tab column wide
  have cut : List.range' first (last + 1 - first) =
      List.range' first count ++ (first + count) :: List.range' (first + count + 1)
        (last - (first + count)) := by
    rw [← List.range'_succ, List.range'_append_1]
    congr 1
    omega
  have followed := follow_planRegion (s := m.workspace.settings) rows le there
  rw [cut, refused] at followed
  have came := region.eq_follow idle.installed LinkerScriptMode.mem_indentRegion
    follows_indentRegion
  obtain ⟨answer, left⟩ := Prod.mk.inj (came.trans followed)
  exact ⟨fault, limit, answer, left, pressed, text⟩

end Region

/-- Where a brace stands above a line, the brace moves to the margin, and then it is the turn of the
line, which goes one unit further to the right. -/
theorem Idle.turned_brace (idle : m.Idle) (tab : key.token = "TAB") (column : Nat → Int)
    (lines : m.workspace.buffer.document.lines = ["  \x7b".toList, "x".toList]) :
    ¬Wide 0 (turn key column 0 m 0) ∧
      (Wide 1 (turn key column 0 m 1) ↔ Margin.capacity < m.workspace.settings.unit) ∧
      (turn key column 0 m 1).workspace.buffer.document.lines = ["\x7b".toList, "x".toList] := by
  have filled : ∀ line ∈ m.workspace.buffer.document.lines, Line.body line ≠ [] := by
    rw [lines]
    decide
  have narrow : ¬Wide 0 (turn key column 0 m 0) :=
    Int.not_lt.mpr (by decide : (0 : Int) ≤ Margin.capacity)
  have turned : Turned m (List.range' 0 1) (turn key column 0 m (0 + 1)) := by
    refine idle.turned tab filled (by rw [lines]; decide) ?_
    rintro row (- | ⟨-, ⟨⟩⟩)
    exact narrow
  have run := turned.run
  rw [lines] at run
  have left : (turn key column 0 m 1).workspace.buffer.document.lines =
      ["\x7b".toList, "x".toList] := (Except.ok.inj run).symm
  refine ⟨narrow, ?_, left⟩
  rw [Wide, decided, left, turned.settings]
  have column : (Indent.decideRow m.workspace.settings.style ["\x7b".toList, "x".toList]
      m.workspace.settings.unit 1).column = 0 + 1 * m.workspace.settings.unit := by
    cases m.workspace.settings.style <;> rfl
  rw [column, Int.one_mul, Int.zero_add]

/-- The command for the region is called on a new manager. -/
theorem exists_region (b : Buffer) (s : Settings) :
    ∃ m outcome after, m = ofBuffer b s ∧ m.Idle ∧ m.workspace.buffer = b ∧
      m.workspace.settings = s ∧ m.Invokes "indent.region" outcome after := by
  rcases called : effect (runAction "indent.region") (ofBuffer b s) with ⟨outcome, after⟩
  exact ⟨ofBuffer b s, _, after, rfl, idle_ofBuffer b s, buffer_ofBuffer b s, settings_ofBuffer b s,
    .named called⟩

/-- The tab key on the rows of a region, one after the other, makes the same of the text as the
command for the region. If some margin is wider than memory holds, the command is refused and the
buffer stays, while the tab key is refused with the same fault on the first such row. -/
theorem tabs_eq_region (name path : Option String) (text : List Char) (settings : Settings)
    {selection : Option Selection} {first last : Nat}
    (filled : ∀ line ∈ (Document.ofText text).lines, Line.body line ≠ [])
    (covers : Covers (Document.ofText text).lines selection first last) {key : KeyPress}
    (tab : key.token = "TAB") (column : Nat → Int) {outcome : Except Fault KeyResult}
    {after : Manager}
    (region : (ofBuffer ((Buffer.ofText name path text).select selection) settings).Invokes
      "indent.region" outcome after) :
    let m := ofBuffer ((Buffer.ofText name path text).select selection) settings
    let rows := List.range' first (last + 1 - first)
    let before := turn key column first m
    ((∀ row ∈ rows, ¬Wide row (before row)) →
      after.workspace.buffer.text = (pressOnAll key column rows m).workspace.buffer.text) ∧
    ∀ row ∈ rows, Wide row (before row) →
      (∀ earlier ∈ rows, earlier < row → ¬Wide earlier (before earlier)) →
      ∃ fault, fault.IsLimit ∧ outcome = .error fault ∧
        after.workspace.buffer = m.workspace.buffer ∧
        (press key (Step.perform (.moveCursor ⟨row, column row⟩) (before row))).outcome =
          .error fault ∧
        (pressOn key column (before row) row).workspace.buffer.text =
          (before row).workspace.buffer.text := by
  have idle := idle_ofBuffer ((Buffer.ofText name path text).select selection) settings
  have same := buffer_ofBuffer ((Buffer.ofText name path text).select selection) settings
  generalize ofBuffer ((Buffer.ofText name path text).select selection) settings = m
    at region idle same ⊢
  intro m rows before
  have content : ∀ line ∈ m.workspace.buffer.document.lines, Line.body line ≠ [] := by
    rw [same]
    exact filled
  have span : Covers m.workspace.buffer.document.lines m.workspace.buffer.selection first last := by
    rw [same]
    exact covers
  constructor
  · exact idle.text_of_narrow tab column content span region
  · intro row mem
    exact idle.refused_of_wide tab column content span region mem

/-- Below a brace the tab key moves a line to where the command for the region moves it. -/
theorem tabs_eq_region_below_brace :
    let text := "  \x7b\nx".toList
    let key : KeyPress := ⟨"TAB", [], none⟩
    let s := Settings.ofEnvironment []
    (∀ line ∈ (Document.ofText text).lines, Line.body line ≠ []) ∧
      Covers (Document.ofText text).lines none 0 1 ∧ key.token = "TAB" ∧
      ∃ m outcome after, m = ofBuffer ((Buffer.ofText none none text).select none) s ∧
        m.Invokes "indent.region" outcome after ∧
        (∀ row ∈ [0, 1], ¬Wide row (turn key (fun _ => 0) 0 m row)) ∧
        after.workspace.buffer.text = "\x7b\n    x".toList ∧
        (pressOnAll key (fun _ => 0) [0, 1] m).workspace.buffer.text = "\x7b\n    x".toList := by
  intro text key s
  have filled : ∀ line ∈ (Document.ofText text).lines, Line.body line ≠ [] := by decide
  have covers : Covers (Document.ofText text).lines none 0 1 := .all rfl
  have tab : key.token = "TAB" := rfl
  obtain ⟨m, outcome, after, start, idle, buffer, settings, region⟩ :=
    exists_region ((Buffer.ofText none none text).select none) s
  have same := (tabs_eq_region none none text s filled covers tab (fun _ => 0)
    (start ▸ region)).1
  rw [← start] at same
  obtain ⟨first, second, -⟩ := idle.turned_brace tab (fun _ => 0) (by rw [buffer]; rfl)
  rw [settings] at second
  have narrow : ∀ row ∈ [0, 1], ¬Wide row (turn key (fun _ => 0) 0 m row) := by
    rintro row (- | ⟨-, - | ⟨-, ⟨⟩⟩⟩)
    · exact first
    · exact second.not.mpr (by decide)
  have came : after.workspace.buffer = _ := congrArg Prod.snd
    (region.eq_follow idle.installed LinkerScriptMode.mem_indentRegion follows_indentRegion)
  have moved : after.workspace.buffer.text = "\x7b\n    x".toList := by
    rw [came, buffer, settings]
    rfl
  exact ⟨filled, covers, tab, m, outcome, after, start, region, narrow, moved,
    (same narrow).symm.trans moved⟩

/-- Where a line would go further to the right than memory holds, the tab key has already moved the
brace above it, but the command for the region moves neither. -/
theorem tabs_ne_region_of_wide :
    let text := "  \x7b\nx".toList
    let key : KeyPress := ⟨"TAB", [], none⟩
    let s : Settings := ⟨[], some 100000000000000000000, none⟩
    (∀ line ∈ (Document.ofText text).lines, Line.body line ≠ []) ∧
      Covers (Document.ofText text).lines none 0 1 ∧ key.token = "TAB" ∧
      ∃ m outcome after, m = ofBuffer ((Buffer.ofText none none text).select none) s ∧
        m.Invokes "indent.region" outcome after ∧
        after.workspace.buffer.text = "  \x7b\nx".toList ∧
        (pressOnAll key (fun _ => 0) [0, 1] m).workspace.buffer.text = "\x7b\nx".toList ∧
        after.workspace.buffer.text ≠
          (pressOnAll key (fun _ => 0) [0, 1] m).workspace.buffer.text := by
  intro text key s
  have filled : ∀ line ∈ (Document.ofText text).lines, Line.body line ≠ [] := by decide
  have covers : Covers (Document.ofText text).lines none 0 1 := .all rfl
  have tab : key.token = "TAB" := rfl
  obtain ⟨m, outcome, after, start, idle, buffer, settings, region⟩ :=
    exists_region ((Buffer.ofText none none text).select none) s
  obtain ⟨narrow, wide, lines⟩ := idle.turned_brace tab (fun _ => 0) (by rw [buffer]; rfl)
  rw [settings] at wide
  have above : ∀ earlier ∈ List.range' 0 (1 + 1 - 0), earlier < 1 →
      ¬Wide earlier (turn key (fun _ => 0) 0 m earlier) := by
    rintro (_ | earlier) - first
    · exact narrow
    · exact absurd first (by omega)
  obtain ⟨fault, -, -, kept, -, left⟩ := idle.refused_of_wide tab (fun _ => 0)
    (by rw [buffer]; exact filled) (by rw [buffer]; exact covers) region (.tail _ (.head _))
    (wide.mpr (by decide)) above
  have stayed : after.workspace.buffer.text = "  \x7b\nx".toList := by
    rw [kept, buffer]
    rfl
  have moved : (pressOnAll key (fun _ => 0) [0, 1] m).workspace.buffer.text = "\x7b\nx".toList :=
    left.trans (congrArg joinLines lines)
  refine ⟨filled, covers, tab, m, outcome, after, start, region, stayed, moved, ?_⟩
  rw [stayed, moved]
  decide

end Manager

end LinkerScriptEditor
