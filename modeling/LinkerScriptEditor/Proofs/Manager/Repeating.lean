import LinkerScriptEditor.Proofs.Buffer.Restoring
import LinkerScriptEditor.Proofs.Command.Plan
import LinkerScriptEditor.Proofs.Manager.Selecting

/-!
# Repeating the commands that indent

Wherever a session has come to, a command that indents does the same the second time that it is
called as it would do on the buffer that it left, which is nothing. The first time it records one
edit at most, and undoing that goes back to the text and the cursor from before.
-/

namespace LinkerScriptEditor

open Traced Command

/-- Undoing a change that is committed goes back to before it. -/
theorem Buffer.Committed.undo {b after : Buffer} (committed : Committed b after)
    (room : 0 < b.history.limit) :
    ∃ e delta back, after.history = b.history.push e ∧
      after.undo = (some delta, back) ∧ back.Revisits b := by
  obtain ⟨label, lines, cursor, rfl⟩ := committed
  let made := commit label b { b with document := b.document.replace lines, cursor }
  let e : Edit := ⟨label, b.text, made.text, b.cursor, cursor⟩
  obtain ⟨older, done⟩ : ∃ older, made.history.done = e :: older := by
    change ∃ older, (e :: b.history.done).take b.history.limit = e :: older
    cases limit : b.history.limit with
    | zero => exact absurd (limit ▸ room) (Nat.lt_irrefl 0)
    | succ left => exact ⟨_, List.take_succ_cons⟩
  refine ⟨e, _, _, rfl, by rw [Buffer.undo, History.undo?, done], ?_⟩
  exact (shows_restore _ _ _ made).revisits rfl rfl

namespace Manager

variable {m : Manager} {id description : String} {command : Traced Workspace KeyResult}
  {planning : Planning} {outcome : Except Fault KeyResult} {after : Manager}

theorem Installed.work (installed : m.Installed) (work : Work) :
    (work.perform m).Installed ∧
      (work.perform m).workspace.buffer.history.limit =
        m.workspace.buffer.history.limit := by
  rcases work with ⟨key | p | change⟩ | op
  · obtain ⟨keys, w, after, worked⟩ :=
      (installed.inMode.press_handled installed.listed key).worked installed.listed
    obtain ⟨requests, performed, -⟩ := worked.exists_requests
    change (effect (press key) m).2.Installed ∧
      (effect (press key) m).2.workspace.buffer.history.limit = _
    rw [after]
    refine ⟨(installed.pend keys).frame worked.frame, ?_⟩
    dsimp only
    rw [performed]
    exact Buffer.limit_performAll _ requests
  · exact ⟨installed.congr rfl rfl, rfl⟩
  · exact ⟨installed.congr rfl rfl, rfl⟩
  · exact ⟨installed.congr rfl rfl, Buffer.limit_change (Buffer.change_perform _ op)⟩

/-- The manager after all that a host does in a session. -/
def workAll (works : List Work) (m : Manager) : Manager :=
  works.foldl (fun m work => work.perform m) m

theorem Installed.workAll (installed : m.Installed) (works : List Work) :
    (workAll works m).Installed ∧
      (workAll works m).workspace.buffer.history.limit =
        m.workspace.buffer.history.limit := by
  induction works generalizing m with
  | nil => exact ⟨installed, rfl⟩
  | cons work rest ih =>
      obtain ⟨installed, limit⟩ := installed.work work
      obtain ⟨installed, limits⟩ := ih installed
      exact ⟨installed, limits.trans limit⟩

/-- However a command is called, what comes of it is to follow its planning. -/
theorem Invokes.eq_follow (invokes : Invokes id m outcome after) (installed : m.Installed)
    (mem : LinkerScriptMode.action id description command ∈ LinkerScriptMode.actions)
    (follows : Follows command planning) :
    (outcome, after.workspace.buffer) =
      planning.follow m.workspace.settings m.workspace.buffer := by
  obtain ⟨start, same, rfl, rfl⟩ := invokes.exists_effect installed mem
  have comes := follows.comes start.workspace
  rcases same with rfl | rfl
  · exact comes
  · exact comes

/-- The names of the actions that indent rows as they are. -/
def indentIds : List String := ["indent.line", "indent.region"]

theorem exists_follows (indents : id ∈ indentIds) :
    ∃ description command planning,
      LinkerScriptMode.action id description command ∈ LinkerScriptMode.actions ∧
        Follows command planning := by
  simp only [indentIds, List.mem_cons, List.not_mem_nil, or_false] at indents
  rcases indents with rfl | rfl
  · exact ⟨_, _, _, LinkerScriptMode.mem_indentLine, follows_indentLine⟩
  · exact ⟨_, _, _, LinkerScriptMode.mem_indentRegion, follows_indentRegion⟩

/-- The settings and the buffer are what the first call left, so the second follows the planning
where it stays. -/
theorem Invokes.again (invokes : Invokes id m outcome after) (installed : m.Installed)
    (indents : id ∈ indentIds) {keys : List String} {again : Except Fault KeyResult}
    {last : Manager} (second : (after.pend keys).Invokes id again last) :
    again = outcome ∧ last.workspace.buffer = after.workspace.buffer := by
  obtain ⟨description, command, planning, mem, follows⟩ := exists_follows indents
  have came := invokes.eq_follow installed mem follows
  have left : after.workspace.buffer = _ := congrArg Prod.snd came
  obtain ⟨still, settings⟩ := invokes.kept installed mem
  have stays : (again, last.workspace.buffer) = (outcome, after.workspace.buffer) :=
    calc (again, last.workspace.buffer)
      _ = planning.follow after.workspace.settings after.workspace.buffer :=
        second.eq_follow (still.pend keys) mem follows
      _ = planning.follow m.workspace.settings m.workspace.buffer := by
        rw [settings, left, follows.again]
      _ = (outcome, after.workspace.buffer) := came.symm
  exact Prod.mk.inj stays

theorem Invokes.recorded (invokes : Invokes id m outcome after) (installed : m.Installed)
    (room : 0 < m.workspace.buffer.history.limit) (indents : id ∈ indentIds) :
    after.workspace.buffer = m.workspace.buffer ∨
      ∃ e delta back, after.workspace.buffer.history = m.workspace.buffer.history.push e ∧
        after.workspace.buffer.undo = (some delta, back) ∧
        back.Revisits m.workspace.buffer := by
  obtain ⟨description, command, planning, mem, follows⟩ := exists_follows indents
  have left : after.workspace.buffer = _ :=
    congrArg Prod.snd (invokes.eq_follow installed mem follows)
  rw [left]
  exact (planning.committed_follow _ _).imp_right fun committed => committed.undo room

/-- Wherever a host has come to, the line of the cursor or a region is indented in any way and then
once more: the second time comes to the same and leaves the buffer, with its history, as the first
time left it. The first time changes nothing or adds one edit, and undoing that edit goes back to
the text and the cursor from before. -/
theorem indent_again (b : Buffer) (settings : Settings) (room : 0 < b.history.limit)
    (works : List Work) (indents : id ∈ indentIds)
    (invokes : (workAll works (ofBuffer b settings)).Invokes id outcome after) :
    let before := (workAll works (ofBuffer b settings)).workspace.buffer
    (∀ keys again last, (after.pend keys).Invokes id again last →
      again = outcome ∧ last.workspace.buffer = after.workspace.buffer) ∧
    (after.workspace.buffer = before ∨
      ∃ e delta back, after.workspace.buffer.history = before.history.push e ∧
        after.workspace.buffer.undo = (some delta, back) ∧ back.Revisits before) := by
  intro before
  obtain ⟨installed, limit⟩ := (installed_ofBuffer b settings).workAll works
  rw [buffer_ofBuffer] at limit
  exact ⟨fun _ _ _ second => invokes.again installed indents second,
    invokes.recorded installed (Nat.lt_of_lt_of_eq room limit.symm) indents⟩

/-- The tab key moves the line below a brace, once. -/
theorem indent_again_below_brace :
    let b := Buffer.ofText none none "\x7b\na".toList
    let works : List Work := [.step (.moveCursor ⟨1, 0⟩)]
    let m := workAll works (ofBuffer b (.ofEnvironment []))
    0 < b.history.limit ∧ "indent.line" ∈ indentIds ∧
      ∃ outcome after, effect (press ⟨"TAB", [], none⟩) m = (outcome, after) ∧
        m.Invokes "indent.line" outcome after ∧
        after.workspace.buffer.text = "\x7b\n    a".toList ∧
        (∀ keys again last, (after.pend keys).Invokes "indent.line" again last →
          last.workspace.buffer = after.workspace.buffer) ∧
        ∃ delta back, after.workspace.buffer.undo = (some delta, back) ∧
          back.text = "\x7b\na".toList ∧ back.cursor = ⟨1, 0⟩ := by
  intro b works m
  have installed : m.Installed := ((installed_ofBuffer b (.ofEnvironment [])).workAll works).1
  have start : m.workspace = { (started b (.ofEnvironment [])).workspace with
      buffer := b.setCursor ⟨1, 0⟩ } := by
    change (workAll works (ofBuffer b (.ofEnvironment []))).workspace = _
    rw [ofBuffer_eq]
    rfl
  have idle : m.workspace.activeMode?.map ModeState.pending = some [] := by
    rw [start]
    rfl
  have tab : (⟨"TAB", [], none⟩ : KeyPress).token = "TAB" := rfl
  obtain ⟨a, runs, line⟩ := runs?_tab installed.keymap idle tab
  rcases run : effect (press ⟨"TAB", [], none⟩) m with ⟨outcome, after⟩
  have invokes : m.Invokes "indent.line" outcome after := .pressed runs line run
  have room : 0 < b.history.limit := by decide
  have indents : "indent.line" ∈ indentIds := .head _
  obtain ⟨again, recorded⟩ := indent_again b (.ofEnvironment []) room works indents invokes
  have came := invokes.eq_follow installed LinkerScriptMode.mem_indentLine follows_indentLine
  have text : after.workspace.buffer.text = "\x7b\n    a".toList := by
    have left : after.workspace.buffer = _ := congrArg Prod.snd came
    rw [left, start]
    rfl
  have was : (workAll works (ofBuffer b (.ofEnvironment []))).workspace.buffer =
      b.setCursor ⟨1, 0⟩ := congrArg Workspace.buffer start
  refine ⟨room, indents, outcome, after, rfl, invokes, text,
    fun keys _ _ second => (again keys _ _ second).2, ?_⟩
  rw [was] at recorded
  rcases recorded with unchanged | ⟨-, delta, back, -, undo, revisits⟩
  · rw [unchanged] at text
    exact absurd text (by decide)
  · exact ⟨delta, back, undo, revisits.text, revisits.cursor⟩

end Manager

end LinkerScriptEditor
