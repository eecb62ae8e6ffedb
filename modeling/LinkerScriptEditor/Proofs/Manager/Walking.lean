import LinkerScriptEditor.Proofs.Command.Walking
import LinkerScriptEditor.Proofs.Manager.PlainKeys

/-!
# Cursor keys

The four cursor keys run the four moves. To the right and to the left they walk the flat text
character by character, up and down they go from row to row. They keep the cursor in the text and
change nothing but the cursor.
-/

namespace LinkerScriptEditor

open Traced Command

namespace Command.Direction

/-- The name of the key that moves the cursor. -/
def key : Direction → String
  | left => "LEFT"
  | right => "RIGHT"
  | up => "UP"
  | down => "DOWN"

def actionId : Direction → String
  | left => "cursor.left"
  | right => "cursor.right"
  | up => "cursor.up"
  | down => "cursor.down"

theorem mem_plainKeys (direction : Direction) :
    (direction.key, direction.actionId) ∈ LinkerScriptMode.plainKeys := by
  cases direction <;> decide

theorem mem_actions (direction : Direction) :
    LinkerScriptMode.action direction.actionId "" (moveCursor direction) ∈
      LinkerScriptMode.actions := by
  cases direction <;> simp [LinkerScriptMode.actions, actionId]

/-- What a step in a direction makes of a position of a document: to the right and to the left the
neighbour in the flat text, up and down the largest column of the neighbouring row that is not past
the old one. -/
def Leads (d : Document) (p q : Position) : Direction → Prop
  | right => if p.offset d.lines = d.text.length then q = p
      else q.offset d.lines = p.offset d.lines + 1
  | left => if p.offset d.lines = 0 then q = p else q.offset d.lines + 1 = p.offset d.lines
  | up => q.row = (if 0 < p.row then p.row - 1 else p.row) ∧
      IsGreatest {column | Position.Within ⟨q.row, column⟩ d.lines ∧ column ≤ p.column} q.column
  | down => q.row = (if p.row < d.lastRow then p.row + 1 else p.row) ∧
      IsGreatest {column | Position.Within ⟨q.row, column⟩ d.lines ∧ column ≤ p.column} q.column

end Command.Direction

namespace Command

/-- Every move leads from within the document to where its direction says. -/
theorem move_leads {d : Document} {p : Position} (within : p.Within d.lines)
    (direction : Direction) :
    ∃ q, move d p direction = .ok q ∧ q.Within d.lines ∧ direction.Leads d p q := by
  have nonneg := within.row_nonneg
  have bound := within.row_lt
  have last : d.lastRow = (d.lines.length : Int) - 1 := rfl
  cases direction with
  | right =>
      obtain ⟨q, moved, there, step | ⟨stays, ended⟩⟩ := move_right within
      · have length : q.offset d.lines ≤ d.text.length := there.offset_le
        have more : p.offset d.lines ≠ d.text.length := by omega
        exact ⟨q, moved, there, (if_neg more).mpr step⟩
      · exact ⟨q, moved, there, (if_pos ended).mpr stays⟩
  | left =>
      obtain ⟨q, moved, there, step | ⟨stays, start⟩⟩ := move_left within
      · have more : p.offset d.lines ≠ 0 := by omega
        exact ⟨q, moved, there, (if_neg more).mpr step.symm⟩
      · exact ⟨q, moved, there, (if_pos start).mpr stays⟩
  | up =>
      obtain ⟨q, moved, row, greatest⟩ := moveRow_greatest within (-1)
      refine ⟨q, moved, greatest.1.1, ?_, greatest⟩
      rw [row]
      split <;> omega
  | down =>
      obtain ⟨q, moved, row, greatest⟩ := moveRow_greatest within 1
      refine ⟨q, moved, greatest.1.1, ?_, greatest⟩
      rw [row]
      split <;> omega

/-- The moves walk the text of the buffer: each leads from a cursor within the text to another one
and changes nothing else, and to the right and to the left a move back undoes the move. The cursor
keys run the moves while no keys are pending. -/
theorem cursor_walks_text {w : Workspace}
    (valid : w.buffer.cursor.Within w.buffer.document.lines) :
    let d := w.buffer.document
    let p := w.buffer.cursor
    (∀ direction, ∃ q, effect (moveCursor direction) w = (.ok (.plain "move"), w.moveTo q) ∧
      q.Within d.lines ∧ direction.Leads d p q) ∧
    (p.offset d.lines ≠ d.text.length →
      effect (moveCursor .right >>= fun _ => moveCursor .left) w = (.ok (.plain "move"), w)) ∧
    (p.offset d.lines ≠ 0 →
      effect (moveCursor .left >>= fun _ => moveCursor .right) w = (.ok (.plain "move"), w)) ∧
    ∀ m : Manager, m.Idle → m.workspace = w → ∀ (direction : Direction) (key : KeyPress),
      key.token = direction.key →
        effect (Manager.press key) m =
          let moved := effect (moveCursor direction) w
          (moved.1, { m with workspace := moved.2 }) := by
  intro d p
  refine ⟨?_, ?_, ?_, ?_⟩
  · intro direction
    obtain ⟨q, moved, there, leads⟩ := move_leads valid direction
    exact ⟨q, effect_moveCursor moved, there, leads⟩
  · intro more
    obtain ⟨q, right, left⟩ := move_right_left valid more
    exact effect_moveCursor_back right left
  · intro more
    obtain ⟨q, left, right⟩ := move_left_right valid more
    exact effect_moveCursor_back left right
  · rintro m idle rfl direction key named
    have listed := direction.mem_plainKeys
    rw [← named] at listed
    exact idle.press_plain listed direction.mem_actions

/-- From the end of a line over an empty one: the key to the right goes to the empty line, and back
again, and the key for the row above finds none. -/
theorem cursor_walks_text_over_empty_line :
    let b := (Buffer.ofText none none "a\n\nbc".toList).setCursor ⟨0, 1⟩
    ∃ m : Manager, m.Idle ∧ m.workspace.buffer = b ∧ b.cursor.Within b.document.lines ∧
      (KeyPress.mk "RIGHT" [] none).token = Direction.right.key ∧
      effect (Manager.press ⟨"RIGHT", [], none⟩) m =
        (.ok (.plain "move"), { m with workspace := m.workspace.moveTo ⟨1, 0⟩ }) ∧
      effect (moveCursor .up) m.workspace =
        (.ok (.plain "move"), m.workspace.moveTo ⟨0, 1⟩) ∧
      effect (moveCursor .right >>= fun _ => moveCursor .left) m.workspace =
        (.ok (.plain "move"), m.workspace) := by
  intro b
  obtain ⟨m, idle, buffer⟩ := Manager.exists_idle b
  have within : b.cursor.Within b.document.lines := by decide
  have valid : m.workspace.buffer.cursor.Within m.workspace.buffer.document.lines := by
    rw [buffer]
    exact within
  obtain ⟨-, thereAndBack, -, keys⟩ := cursor_walks_text valid
  have right : effect (moveCursor .right) m.workspace =
      (.ok (.plain "move"), m.workspace.moveTo ⟨1, 0⟩) := by
    apply effect_moveCursor
    rw [buffer]
    rfl
  have up : effect (moveCursor .up) m.workspace =
      (.ok (.plain "move"), m.workspace.moveTo ⟨0, 1⟩) := by
    apply effect_moveCursor
    rw [buffer]
    rfl
  refine ⟨m, idle, buffer, within, rfl, ?_, up, thereAndBack ?_⟩
  · rw [keys m idle rfl .right _ rfl, right]
  · rw [buffer]
    decide

end Command

end LinkerScriptEditor
