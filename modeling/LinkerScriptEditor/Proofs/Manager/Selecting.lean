import LinkerScriptEditor.Proofs.Command.Region
import LinkerScriptEditor.Proofs.Manager.Calling
import LinkerScriptEditor.Proofs.Manager.Session

/-!
# Sessions with a selection

A host selects two positions of the document and leaves the selection alone from then on, while keys
are pressed and the buffer is changed in any way. The selection stays what it is, and the document
always has a line, but it may lose the rows that are selected.
-/

namespace LinkerScriptEditor.Manager

open Traced

/-- What a host does when nothing keeps it within the document. -/
inductive Work
  | step (step : Step)
  | operate (op : Buffer.Operation)

def Work.perform : Work → Manager → Manager
  | .step taken, m => taken.perform m
  | .operate op, m =>
    { m with workspace := { m.workspace with buffer := m.workspace.buffer.perform op } }

/-- A session in which anything may become of the buffer. -/
inductive Session : Manager → Prop
  | start (name path : Option String) (text : List Char) (environment : Environment) :
      Session (ofBuffer (.ofText name path text) (.ofEnvironment environment))
  | work {m : Manager} (before : Session m) (work : Work) : Session (work.perform m)

/-- A session since two positions of the document were selected. -/
inductive Selecting (s : Selection) : Manager → Prop
  | select {m : Manager} (before : Session m)
      (anchor : s.anchor.Within m.workspace.buffer.document.lines)
      (point : s.point.Within m.workspace.buffer.document.lines) :
      Selecting s (Work.perform (.operate (.select (some s))) m)
  | work {m : Manager} (before : Selecting s m) {work : Work}
      (leaves : ∀ other, work ≠ .operate (.select other)) : Selecting s (work.perform m)

/-- Keys are served, there is a unit to indent by, and the document has a line. -/
structure Working (m : Manager) : Prop where
  inMode : m.InMode
  keymap : m.keymap.Serves LinkerScriptMode.name LinkerScriptMode.actions
  unit_pos : 0 < m.workspace.settings.unit
  ne_nil : m.workspace.buffer.document.lines ≠ []

variable {m : Manager} {s : Selection}

theorem Ready.working (ready : m.Ready) : m.Working :=
  ⟨ready.inMode, ready.keymap, ready.workspace.unit_pos, ready.workspace.sound.lines.ne_nil⟩

/-- Nothing but the modes, the unit and the lines counts. -/
theorem Working.congr (working : m.Working) {w : Workspace} (modes : w.modes = m.workspace.modes)
    (active : w.active = m.workspace.active) (unit_pos : 0 < w.settings.unit)
    (ne : w.buffer.document.lines ≠ []) : Working { m with workspace := w } where
  inMode := working.inMode.congr modes active
  keymap := working.keymap
  unit_pos := unit_pos
  ne_nil := ne

theorem Working.frame (working : m.Working) {w : Workspace} (frame : m.workspace.Frame w)
    (ne : w.buffer.document.lines ≠ []) : Working { m with workspace := w } := by
  apply working.congr frame.modes frame.active _ ne
  rw [frame.settings]
  exact working.unit_pos

theorem Working.pend (working : m.Working) (keys : List String) : (m.pend keys).Working :=
  ⟨working.inMode.pend keys, working.keymap, working.unit_pos, working.ne_nil⟩

/-- A key leaves the manager working, and what is selected. -/
theorem Working.press (working : m.Working) (key : KeyPress) :
    Working (Step.perform (.press key) m) ∧
      (Step.perform (.press key) m).workspace.buffer.selection =
        m.workspace.buffer.selection := by
  have listed := working.keymap.listed
  obtain ⟨keys, w, after, worked⟩ :=
    (working.inMode.press_handled listed key).worked listed
  rw [Step.perform, state_eq, after]
  exact ⟨(working.pend keys).frame worked.frame (worked.ne_nil working.ne_nil),
    worked.frame.selection⟩

theorem Working.operate (working : m.Working) (op : Buffer.Operation) :
    Working (Work.perform (.operate op) m) :=
  working.congr rfl rfl working.unit_pos ((Buffer.change_perform _ op).ne_nil working.ne_nil)

theorem Working.work (working : m.Working) (work : Work) : (work.perform m).Working := by
  rcases work with ⟨key | p | change⟩ | op
  · exact (working.press key).1
  · exact working.operate (.setCursor p)
  · exact working.congr rfl rfl (change.unit_pos working.unit_pos) working.ne_nil
  · exact working.operate op

theorem Session.working (session : Session m) : m.Working := by
  induction session with
  | start name path text environment => exact (ready_start name path text environment).working
  | work before work ih => exact ih.work work

/-- Only a selection selects anything else. -/
theorem Working.selection_work (working : m.Working) {work : Work}
    (leaves : ∀ other, work ≠ .operate (.select other)) :
    (work.perform m).workspace.buffer.selection = m.workspace.buffer.selection := by
  rcases work with ⟨key | p | change⟩ | op
  · exact (working.press key).2
  · rfl
  · rfl
  · apply Buffer.selection_perform op
    rintro other rfl
    exact leaves other rfl

theorem Selecting.working_selection (selecting : Selecting s m) :
    m.Working ∧ m.workspace.buffer.selection = some s := by
  induction selecting with
  | select before anchor point => exact ⟨before.working.operate _, rfl⟩
  | work before leaves ih =>
      exact ⟨ih.1.work _, (ih.1.selection_work leaves).trans ih.2⟩

theorem Selecting.rows_eq (selecting : Selecting s m) :
    ∃ first last : Nat, s.rows = ((first : Int), (last : Int)) ∧ first ≤ last := by
  induction selecting with
  | select before anchor point =>
      obtain ⟨p, atAnchor, -⟩ := anchor.exists_place
      obtain ⟨q, atPoint, -⟩ := point.exists_place
      have rows : s.rows = (min (p.row : Int) q.row, max (p.row : Int) q.row) := by
        rw [Selection.rows, atAnchor, atPoint]
        rfl
      refine ⟨min p.row q.row, max p.row q.row, ?_, by omega⟩
      rw [rows]
      simp only [Prod.mk.injEq]
      omega
  | work before leaves ih => exact ih

/-- A key that indents the region indents what is left of the selected rows. -/
theorem Selecting.indented (selecting : Selecting s m) {key : KeyPress} {a : Action Handler}
    (runs : m.runs? key = some a) (region : a.id = "indent.region") :
    ∃ outcome after, effect (press key) m = (outcome, { m with workspace := after }) ∧
      Command.Indented (m.pend []).workspace s.rows.1 s.rows.2 (outcome, after) := by
  obtain ⟨working, selected⟩ := selecting.working_selection
  obtain ⟨first, last, rows, le⟩ := selecting.rows_eq
  have idle := working.pend []
  have chosen : Command.regionRows (m.pend []).workspace.buffer =
      ((first : Int), (last : Int)) := by
    change Command.regionRows m.workspace.buffer = _
    rw [Command.regionRows, selected]
    exact rows
  have indented := Command.indented_indentRegion idle.unit_pos idle.ne_nil le chosen
  rw [effect_press_of_id working.inMode working.keymap.listed runs
    LinkerScriptMode.mem_indentRegion region, rows]
  exact ⟨_, _, rfl, indented⟩

/-- A key that indents the region indents what is left of the selected rows, and tells of all of
them. Where there is room, it gives a result and tells of rows that exist just if the last row that
was selected is still there. -/
theorem Selecting.press_region (selecting : Selecting s m) {key : KeyPress} {a : Action Handler}
    (runs : m.runs? key = some a) (region : a.id = "indent.region") :
    ∃ outcome after, effect (press key) m = (outcome, { m with workspace := after }) ∧
      Command.Indented (m.pend []).workspace s.rows.1 s.rows.2 (outcome, after) ∧
      (m.workspace.RoomyFor (s.rows.2 - s.rows.1 + 1) →
        ((∃ result, outcome = .ok result) ∧ s.rows.2 < after.buffer.document.lineCount ↔
          s.rows.2 < m.workspace.buffer.document.lineCount)) := by
  obtain ⟨outcome, after, ran, indented⟩ := selecting.indented runs region
  refine ⟨outcome, after, ran, indented, indented.answers_iff ?_⟩
  obtain ⟨first, last, rows, le⟩ := selecting.rows_eq
  rw [rows]
  exact Int.ofNat_le.mpr le

/-- A line below a brace is selected, and indented when the key of the region is pressed. -/
theorem press_region_below_brace :
    let s : Selection := ⟨⟨1, 0⟩, ⟨1, 1⟩⟩
    let m := Work.perform (.operate (.select (some s)))
      (ofBuffer (.ofText none none "\x7b\na".toList) (.ofEnvironment []))
    Selecting s m ∧
      ∃ a, m.runs? ⟨"\\", ["ALT", "CTRL"], none⟩ = some a ∧ a.id = "indent.region" ∧
        ∃ result after,
          effect (press ⟨"\\", ["ALT", "CTRL"], none⟩) m =
            (.ok result, { m with workspace := after }) ∧
          1 < after.buffer.document.lineCount := by
  intro s m
  have session := Session.start none none "\x7b\na".toList []
  have selecting : Selecting s m := .select session (by decide) (by decide)
  obtain ⟨a, runs, region⟩ : ∃ a, m.runs? ⟨"\\", ["ALT", "CTRL"], none⟩ = some a ∧
      a.id = "indent.region" := runs?_region rfl rfl
  obtain ⟨outcome, after, ran, -, answers⟩ := selecting.press_region runs region
  have roomy : m.workspace.RoomyFor (s.rows.2 - s.rows.1 + 1) := by
    have lines : m.workspace.buffer.document.lines = ["\x7b".toList, "a".toList] := by rfl
    have unit : m.workspace.settings.unit = 4 := by rfl
    rw [Workspace.RoomyFor, lines, unit]
    decide
  have two : s.rows.2 < m.workspace.buffer.document.lineCount := by decide +kernel
  obtain ⟨⟨result, rfl⟩, there⟩ := (answers roomy).mpr two
  exact ⟨selecting, a, runs, region, result, after, ran, Int.ofNat_lt.mp there⟩

/-- The selected line is joined to the one above it, and then its region is refused. -/
theorem press_region_of_joined_line :
    let s : Selection := ⟨⟨1, 0⟩, ⟨1, 1⟩⟩
    let start := ofBuffer (.ofText none none "a\nb".toList) (.ofEnvironment [])
    let below := Work.perform (.step (.moveCursor ⟨1, 0⟩)) start
    let selected := Work.perform (.operate (.select (some s))) below
    let m := Work.perform (.step (.press ⟨"BACKSPACE", [], none⟩)) selected
    Selecting s m ∧
      (press ⟨"\\", ["ALT", "CTRL"], none⟩ m).outcome = .error (.rowOutside 1 0) := by
  intro s start below selected m
  have session : Session below := .work (.start none none "a\nb".toList []) _
  have selecting : Selecting s selected := .select session (by decide) (by decide)
  have joined : Selecting s m := selecting.work nofun
  obtain ⟨a, runs, region⟩ : ∃ a, m.runs? ⟨"\\", ["ALT", "CTRL"], none⟩ = some a ∧
      a.id = "indent.region" := runs?_region rfl rfl
  obtain ⟨outcome, after, ran, indented⟩ := joined.indented runs region
  have rows : s.rows = (1, 1) := rfl
  have one : (m.pend []).workspace.buffer.document.lineCount = 1 := by decide +kernel
  rw [rows] at indented
  refine ⟨joined, ?_⟩
  rw [outcome_eq, ran]
  cases indented with
  | gone past =>
      rw [Document.lastRow, one]
      rfl
  | refused there => omega
  | told there => omega

end LinkerScriptEditor.Manager
