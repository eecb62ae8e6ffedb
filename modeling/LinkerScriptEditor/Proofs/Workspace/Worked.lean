import LinkerScriptEditor.Proofs.Buffer.Returns
import LinkerScriptEditor.Proofs.Buffer.Timeline
import LinkerScriptEditor.Proofs.Workspace.Announcement

/-!
# The work of commands

Whatever the state of a workspace, and whether or not a command is refused, all that the editor's
own commands do is to work on the buffer, gently, and to tell the bus what they have indented. What
such work keeps is shown here once for all commands.
-/

namespace LinkerScriptEditor.Workspace

open Traced

/-- One workspace comes from another by gentle operations on the buffer and by emissions that
announce no switch. -/
inductive Worked : Workspace → Workspace → Prop
  | refl (w : Workspace) : Worked w w
  | edit {w after : Workspace} (op : Buffer.Operation) (gentle : op.Gentle w.buffer)
      (rest : Worked { w with buffer := w.buffer.perform op } after) : Worked w after
  | emit {w after : Workspace} {event : String} (other : event ∉ switchEvents) (payload : Datum)
      (rest : Worked (w.emitted event payload) after) : Worked w after

variable {w middle after : Workspace}

theorem Worked.trans (first : w.Worked middle) (second : middle.Worked after) :
    w.Worked after := by
  induction first with
  | refl w => exact second
  | edit op gentle rest ih => exact .edit op gentle (ih second)
  | emit other payload rest ih => exact .emit other payload (ih second)

theorem Worked.quiet (worked : w.Worked after) : w.Quiet after := by
  induction worked with
  | refl w => exact .refl w
  | @edit w after op gentle rest ih => exact (quiet_buffer w _).trans ih
  | @emit w after event other payload rest ih =>
      exact (quiet_emitted event other payload w).trans ih

theorem Worked.frame (worked : w.Worked after) : w.Frame after := by
  induction worked with
  | refl w => exact .refl w
  | @edit w after op gentle rest ih =>
      have other : ∀ s, op ≠ .select s := by
        rintro s rfl
        exact gentle
      exact (frame_buffer w (Buffer.selection_perform op other w.buffer)).trans ih
  | @emit w after event other payload rest ih => exact (frame_emitted event payload w).trans ih

theorem Worked.returnless (worked : w.Worked after) (free : w.buffer.Returnless) :
    after.buffer.Returnless := by
  induction worked with
  | refl w => exact free
  | edit op gentle rest ih => exact ih (free.perform op gentle)
  | @emit w after event other payload rest ih =>
      apply ih
      rw [buffer_emitted]
      exact free

theorem Worked.ne_nil (worked : w.Worked after) (ne : w.buffer.document.lines ≠ []) :
    after.buffer.document.lines ≠ [] := by
  induction worked with
  | refl w => exact ne
  | @edit w after op gentle rest ih => exact ih ((Buffer.change_perform w.buffer op).ne_nil ne)
  | @emit w after event other payload rest ih =>
      apply ih
      rw [buffer_emitted]
      exact ne

/-- What work leaves of the buffer comes from requests, none of which marks it as saved. -/
theorem Worked.exists_requests (worked : w.Worked after) :
    ∃ requests, after.buffer = w.buffer.performAll requests ∧
      ∀ op ∈ requests, op ≠ .markSaved := by
  induction worked with
  | refl w => exact ⟨[], rfl, nofun⟩
  | edit op gentle rest ih =>
      obtain ⟨requests, performed, unmarked⟩ := ih
      refine ⟨op :: requests, performed, List.forall_mem_cons.mpr ⟨?_, unmarked⟩⟩
      rintro rfl
      exact gentle
  | @emit w after event other payload rest ih =>
      rw [buffer_emitted] at ih
      exact ih

variable {α β : Type}

theorem worked_onBuffer {x : Traced Buffer α} (op : Buffer.Operation)
    (performs : (effect x w.buffer).2 = w.buffer.perform op) (gentle : op.Gentle w.buffer) :
    w.Worked (effect (onBuffer x) w).2 := by
  apply Worked.edit op gentle
  rw [← performs]
  exact .refl _

theorem worked_emit {event : String} (other : event ∉ switchEvents) (payload : Datum) :
    w.Worked (effect (emit event payload) w).2 :=
  .emit other payload (.refl _)

/-- Work goes on where the work before it ended. -/
theorem worked_bind {x : Traced Workspace α} {f : α → Traced Workspace β}
    (first : w.Worked (effect x w).2)
    (rest : ∀ a, (effect x w).1 = .ok a →
      (effect x w).2.Worked (effect (f a) (effect x w).2).2) :
    w.Worked (effect (x >>= f) w).2 := by
  rw [effect_bind]
  rcases run : effect x w with ⟨_ | a, next⟩
  · rw [run] at first
    exact first
  · rw [run] at first rest
    exact first.trans (rest a rfl)

end LinkerScriptEditor.Workspace
