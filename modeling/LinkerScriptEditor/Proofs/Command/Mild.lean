import LinkerScriptEditor.Mode
import LinkerScriptEditor.Proofs.Command.Indentation
import LinkerScriptEditor.Proofs.Indent.Range
import LinkerScriptEditor.Proofs.Workspace.Worked

/-!
# Mild commands

A mild command does nothing but the work of commands and asks for no other mode. All commands of the
linker script mode are mild, in every workspace.
-/

namespace LinkerScriptEditor

open Traced Workspace

/-- A handler hands a command's result on as it is. -/
theorem LinkerScriptMode.effect_handler (id description : String)
    (command : Traced Workspace KeyResult) (w : Workspace) :
    let ran := effect (action id description command).handler w
    (ran.1.map Outcome.toResult, ran.2) = effect command w := by
  change ((effect (Outcome.result <$> command) w).1.map Outcome.toResult,
    (effect (Outcome.result <$> command) w).2) = _
  rw [effect_map]
  rcases effect command w with ⟨_ | _, after⟩ <;> rfl

namespace Command

structure Mild (w : Workspace) (ran : Except Fault KeyResult × Workspace) : Prop where
  worked : w.Worked ran.2
  stays : ∀ result, ran.1 = .ok result → result.switchTo = none

variable {w : Workspace}

theorem mild_pure {result : KeyResult} (stays : result.switchTo = none) :
    Mild w (.ok result, w) where
  worked := .refl w
  stays := by
    rintro _ ⟨⟩
    exact stays

theorem mild_error (fault : Fault) : Mild w (.error fault, w) := ⟨.refl w, nofun⟩

theorem mild_bind {α : Type} {x : Traced Workspace α} {f : α → Traced Workspace KeyResult}
    (first : w.Worked (effect x w).2)
    (rest : ∀ a, (effect x w).1 = .ok a →
      Mild (effect x w).2 (effect (f a) (effect x w).2)) :
    Mild w (effect (x >>= f) w) where
  worked := worked_bind first fun a run => (rest a run).worked
  stays := by
    intro result done
    rw [effect_bind] at done
    rcases run : effect x w with ⟨_ | a, next⟩
    · rw [run] at done
      cases done
    · rw [run] at done rest
      exact (rest a rfl).stays result done

/-- An operation on the buffer, and then an answer. -/
theorem mild_onBuffer {α : Type} {x : Traced Buffer α} (op : Buffer.Operation)
    (performs : (effect x w.buffer).2 = w.buffer.perform op) (gentle : op.Gentle w.buffer)
    {result : KeyResult} (stays : result.switchTo = none) :
    Mild w (effect (do
      let _ ← onBuffer x
      return result) w) :=
  mild_bind (worked_onBuffer op performs gentle) fun _ _ => mild_pure stays

theorem mild_deleteBackward : Mild w (effect deleteBackward w) := by
  rw [deleteBackward, effect_bind_of_ok (effect_get w)]
  dsimp only
  split
  · let left : Position := ⟨w.buffer.cursor.row, w.buffer.cursor.column - 1⟩
    exact mild_onBuffer (.deleteRange left w.buffer.cursor) rfl trivial rfl
  · split
    · cases w.buffer.document.line (w.buffer.cursor.row - 1) with
      | error fault => exact mild_error fault
      | ok above =>
          let left : Position := ⟨w.buffer.cursor.row - 1, above.length⟩
          exact mild_onBuffer (.deleteRange left ⟨w.buffer.cursor.row, 0⟩) rfl trivial rfl
    · exact mild_pure rfl

theorem mild_travel (status : String) {step : Buffer → Option Delta × Buffer}
    (op : Buffer.Operation) (performs : (step w.buffer).2 = w.buffer.perform op)
    (gentle : op.Gentle w.buffer) : Mild w (effect (travel status step) w) := by
  rw [travel, effect_bind_of_ok (effect_get w)]
  rcases stepped : step w.buffer with ⟨_ | delta, b⟩
  · exact mild_pure rfl
  · rw [stepped] at performs
    cases performs
    exact ⟨.edit op gentle (.refl _), by rintro _ ⟨⟩; rfl⟩

theorem mild_undo : Mild w (effect undo w) := mild_travel "undo" .undo rfl trivial

theorem mild_redo : Mild w (effect redo w) := mild_travel "redo" .redo rfl trivial

theorem mild_moveCursor (direction : Direction) : Mild w (effect (moveCursor direction) w) := by
  rw [moveCursor, effect_bind_of_ok (effect_get w)]
  cases move w.buffer.document w.buffer.cursor direction with
  | error fault => exact mild_error fault
  | ok p => exact ⟨.edit (.setCursor p) trivial (.refl _), by rintro _ ⟨⟩; rfl⟩

theorem worked_indentRow (row : Int) : w.Worked (effect (indentRow row) w).2 := by
  rw [indentRow, effect_bind_of_ok (effect_readUnit w), effect_bind_of_ok (effect_readStyle w),
    effect_bind_of_ok (effect_get w)]
  cases w.buffer.document.indentDecision w.settings.style w.settings.unit row with
  | error fault => exact .refl w
  | ok decision =>
      rw [effect_bind_of_ok (effect_ofExcept (.ok decision) w)]
      apply worked_bind
      · exact worked_onBuffer (.setIndentation row decision.column) rfl trivial
      · intro delta set
        exact worked_bind (worked_emit (by decide) _) fun _ _ => .refl _

theorem mild_indentLine : Mild w (effect indentLine w) := by
  have worked := worked_indentRow (w := w) w.buffer.cursor.row
  rcases run : effect (indentRow w.buffer.cursor.row) w with ⟨fault | decision, after⟩
  · rw [effect_indentLine_of_error rfl run]
    rw [run] at worked
    exact ⟨worked, nofun⟩
  · rw [effect_indentLine_of_ok rfl run]
    rw [run] at worked
    refine ⟨worked, ?_⟩
    cases Numeral.write decision.column with
    | error fault => nofun
    | ok column =>
        rintro _ ⟨⟩
        rfl

theorem mild_newlineAndIndent : Mild w (effect newlineAndIndent w) := by
  have feed : '\r' ∉ ['\n'] := by decide
  exact mild_bind (worked_onBuffer (.insertText ['\n'] none) rfl feed) fun _ _ => mild_indentLine

theorem returnless_slice {lines : List Line} (free : Returnless lines) (start stop : Int) :
    Returnless (Document.slice lines start stop) :=
  fun line mem => free line (List.mem_of_mem_take (List.mem_of_mem_drop mem))

theorem mild_indentRegion : Mild w (effect indentRegion w) := by
  rcases region : regionRows w.buffer with ⟨first, last⟩
  rw [effect_indentRegion region]
  cases passed : Indent.reindentBounded w.settings.style w.settings.unit w.buffer.document.lines
    first (some (last + 1)) with
  | error fault => exact mild_error fault
  | ok lines =>
      let op : Buffer.Operation :=
        .reindentRows first (Document.slice lines first (last + 1)) "indent_region"
      have gentle : op.Gentle w.buffer := by
        intro free
        rcases (Indent.robust_not_mem (c := '\r') (by decide)).reindentBounded w.settings.style
          w.settings.unit free.atLeastOne first (some (last + 1)) with
          ⟨result, run, still⟩ | ⟨fault, run, -⟩
        · cases passed.symm.trans run
          exact returnless_slice still first (last + 1)
        · cases passed.symm.trans run
      have edited : w.Worked { w with buffer := w.buffer.perform op } := .edit op gentle (.refl _)
      have performs : (effect (Buffer.reindentRows first
        (Document.slice lines first (last + 1)) "indent_region") w.buffer).2 =
          w.buffer.perform op := rfl
      dsimp only
      rcases run : effect (Buffer.reindentRows first
        (Document.slice lines first (last + 1)) "indent_region") w.buffer with ⟨fault | delta, b⟩
      · rw [run] at performs
        rw [← performs] at edited
        exact ⟨edited, nofun⟩
      · rw [run] at performs
        rw [← performs] at edited
        refine ⟨edited.trans (.emit (by decide) _ (.refl _)), ?_⟩
        cases Numeral.write (last - first + 1) with
        | error fault => nofun
        | ok count =>
            rintro _ ⟨⟩
            rfl

/-- Every action of the linker script mode is mild. -/
theorem mild_handler {a : Action Handler} (mem : a ∈ LinkerScriptMode.actions) :
    Mild w ((effect a.handler w).1.map Outcome.toResult, (effect a.handler w).2) := by
  simp only [LinkerScriptMode.actions, List.mem_cons, List.not_mem_nil, or_false] at mem
  rcases mem with rfl | rfl | rfl | rfl | rfl | rfl | rfl | rfl | rfl | rfl <;>
    rw [LinkerScriptMode.effect_handler]
  · exact mild_indentLine
  · exact mild_newlineAndIndent
  · exact mild_indentRegion
  · exact mild_deleteBackward
  · exact mild_undo
  · exact mild_redo
  · exact mild_moveCursor .left
  · exact mild_moveCursor .right
  · exact mild_moveCursor .up
  · exact mild_moveCursor .down

end Command

end LinkerScriptEditor
