import LinkerScriptEditor.Proofs.Command.Erasing
import LinkerScriptEditor.Proofs.Manager.PlainKeys

/-!
# Typing and taking back

Characters typed one by one come to the same as a text inserted at once, and as many presses of the
backspace key take them back. In general the backspace key takes out the character before the cursor
in the flat text. A line feed inside the line of the cursor would break the line up, after which
rows and columns are counted anew.
-/

namespace LinkerScriptEditor.Manager

open Traced Command KeyPress

/-- Keys pressed one after the other, with what each of them came to. -/
def pressAll : List KeyPress → Manager → List (Except Fault KeyResult) × Manager
  | [], m => ([], m)
  | key :: keys, m =>
    let first := effect (press key) m
    let rest := pressAll keys first.2
    (first.1 :: rest.1, rest.2)

variable {m : Manager} {above below : List Line} {left right : Line} {c : Char}

/-- Between two keys of an idle manager only the buffer changes. -/
theorem Idle.withBuffer (idle : m.Idle) (b : Buffer) :
    Idle { m with workspace := { m.workspace with buffer := b } } :=
  idle.congr rfl rfl

theorem Idle.types (idle : m.Idle) (parted : m.workspace.buffer.Parted above left right below)
    (free : '\n' ∉ left ++ right) (typeable : Typeable c) :
    ∃ after, effect (press (.ofChar c)) m = (.ok (.plain "insert"), after) ∧ after.Idle ∧
      after.workspace.buffer.Parted above (left ++ [c]) right below := by
  have longer := not_mem_typed (List.forall_mem_singleton.mpr typeable) free
  obtain ⟨delta, b, run, parts⟩ := parted.effect_insertText longer
  refine ⟨_, ?_, idle.withBuffer b, parts⟩
  rw [idle.press_ofChar typeable, run]
  rfl

/-- Characters typed one by one stand between the parts of the line. -/
theorem Idle.types_all (idle : m.Idle) (parted : m.workspace.buffer.Parted above left right below)
    (free : '\n' ∉ left ++ right) {text : List Char} (typeable : ∀ c ∈ text, Typeable c) :
    ∃ after, pressAll (text.map .ofChar) m =
        (List.replicate text.length (.ok (.plain "insert")), after) ∧ after.Idle ∧
      after.workspace.buffer.Parted above (left ++ text) right below := by
  induction text generalizing m left with
  | nil =>
      rw [List.append_nil]
      exact ⟨m, rfl, idle, parted⟩
  | cons c rest ih =>
      have first := typeable c List.mem_cons_self
      obtain ⟨next, typed, nextIdle, nextParted⟩ := idle.types parted free first
      have nextFree := not_mem_typed (List.forall_mem_singleton.mpr first) free
      obtain ⟨after, others, afterIdle, parts⟩ :=
        ih nextIdle nextParted nextFree fun d mem => typeable d (List.mem_cons_of_mem c mem)
      rw [List.append_assoc, List.singleton_append] at parts
      refine ⟨after, ?_, afterIdle, parts⟩
      rw [List.map_cons, pressAll, typed]
      dsimp only
      rw [others]
      rfl

section Backspace

variable {backspace : KeyPress} (named : backspace.token = "BACKSPACE")
include named

theorem Idle.press_backspace (idle : m.Idle) :
    effect (press backspace) m =
      let ran := effect deleteBackward m.workspace
      (ran.1, { m with workspace := ran.2 }) := by
  have listed : (backspace.token, "edit.delete_backward") ∈ LinkerScriptMode.plainKeys := by
    rw [named]
    decide
  exact idle.press_plain listed LinkerScriptMode.mem_deleteBackward

/-- As many presses as there are characters before the cursor take these out of the line. -/
theorem Idle.takes_back (idle : m.Idle) {text : List Char}
    (parted : m.workspace.buffer.Parted above (left ++ text) right below)
    (free : '\n' ∉ left ++ text ++ right) :
    ∃ after, pressAll (List.replicate text.length backspace) m =
        (List.replicate text.length (.ok (.plain "delete_backward")), after) ∧
      after.workspace.buffer.Parted above left right below := by
  -- the last character typed is the first one taken back
  induction text using List.reverseRecOn generalizing m with
  | nil =>
      rw [List.append_nil] at parted
      exact ⟨m, rfl, parted⟩
  | append_singleton front c ih =>
      rw [← List.append_assoc] at parted free
      have shorter : '\n' ∉ left ++ front ++ right := by
        simp only [List.mem_append, not_or] at free ⊢
        exact ⟨free.1.1, free.2⟩
      obtain ⟨b, run, parts⟩ := effect_deleteBackward_of_parted parted shorter
      have pressed := idle.press_backspace named
      rw [run] at pressed
      obtain ⟨after, others, rest⟩ := ih (idle.withBuffer b) parts shorter
      refine ⟨after, ?_, rest⟩
      rw [List.length_append, List.length_singleton, List.replicate_succ, List.replicate_succ,
        pressAll, pressed]
      dsimp only
      rw [others]

/-- Typing is inserting, and the backspace key takes it back. -/
theorem typing_inserts (idle : m.Idle)
    (within : m.workspace.buffer.cursor.Within m.workspace.buffer.document.lines) :
    let b := m.workspace.buffer
    let line := b.document.lineAt b.cursor.row.toNat
    let o := b.cursor.offset b.document.lines
    ('\n' ∉ line → ∀ text : List Char, (∀ c ∈ text, Typeable c) →
      ∃ typed, pressAll (text.map .ofChar) m =
          (List.replicate text.length (.ok (.plain "insert")), typed) ∧
        (∃ delta inserted, effect (Buffer.insertText text none) b = (.ok delta, inserted) ∧
          typed.workspace.buffer.document.lines = inserted.document.lines ∧
          typed.workspace.buffer.cursor = inserted.cursor) ∧
        ∃ back, pressAll (List.replicate text.length backspace) typed =
            (List.replicate text.length (.ok (.plain "delete_backward")), back) ∧
          back.workspace.buffer.document.lines = b.document.lines ∧
          back.workspace.buffer.cursor = b.cursor) ∧
    (o = 0 → effect (press backspace) m = (.ok (.plain "noop"), m)) ∧
    (o ≠ 0 → ∃ after, effect (press backspace) m = (.ok (.plain "delete_backward"),
          { m with workspace := { m.workspace with buffer := after } }) ∧
        after.text = b.text.eraseIdx (o - 1) ∧
        ('\n' ∉ line.drop b.cursor.column.toNat →
          after.cursor.Within after.document.lines ∧
            after.cursor.offset after.document.lines + 1 = o)) := by
  intro b line o
  refine ⟨?_, ?_, ?_⟩
  · intro free text typeable
    obtain ⟨above, left, right, below, parted, whole⟩ := Buffer.exists_parted within
    replace free : '\n' ∉ left ++ right := by rwa [whole]
    have longer := not_mem_typed typeable free
    obtain ⟨typed, run, typedIdle, parts⟩ := idle.types_all parted free typeable
    obtain ⟨delta, inserted, atOnce, others⟩ := parted.effect_insertText longer
    obtain ⟨back, presses, rest⟩ := typedIdle.takes_back named parts longer
    exact ⟨typed, run, ⟨delta, inserted, atOnce, parts.same others⟩, back, presses,
      rest.same parted⟩
  · intro start
    rw [idle.press_backspace named, effect_deleteBackward_of_start within start]
  · intro more
    obtain ⟨after, run, text, cursor⟩ := deleteBackward_erases within more
    refine ⟨after, ?_, text, cursor⟩
    rw [idle.press_backspace named, run]

end Backspace

/-- At the beginning of a line a character and a tab are typed and taken back, and the backspace key
joins the line to the one above. -/
theorem typing_inserts_at_line_start :
    let b := (Buffer.ofText none none "ab\ncd".toList).setCursor ⟨1, 0⟩
    let backspace : KeyPress := ⟨"BACKSPACE", [], none⟩
    let text := "x\t".toList
    ∃ m : Manager, (m.Idle ∧ m.workspace.buffer = b ∧ b.cursor.Within b.document.lines ∧
      backspace.token = "BACKSPACE" ∧ '\n' ∉ b.document.lineAt 1 ∧ ∀ c ∈ text, Typeable c) ∧
      (∃ typed back, pressAll (text.map .ofChar) m =
          (List.replicate 2 (.ok (.plain "insert")), typed) ∧
        typed.workspace.buffer.text = "ab\nx\tcd".toList ∧
        pressAll (List.replicate 2 backspace) typed =
          (List.replicate 2 (.ok (.plain "delete_backward")), back) ∧
        back.workspace.buffer.text = "ab\ncd".toList ∧
        back.workspace.buffer.cursor = ⟨1, 0⟩) ∧
      ∃ after, effect (press backspace) m = (.ok (.plain "delete_backward"),
          { m with workspace := { m.workspace with buffer := after } }) ∧
        after.text = "abcd".toList ∧ after.cursor.offset after.document.lines = 2 := by
  intro b backspace text
  obtain ⟨m, idle, buffer⟩ := exists_idle b
  have within : b.cursor.Within b.document.lines := by decide
  have named : backspace.token = "BACKSPACE" := rfl
  have free : '\n' ∉ b.document.lineAt 1 := by decide
  have typeable : ∀ c ∈ text, Typeable c :=
    List.forall_mem_cons.mpr ⟨by decide, List.forall_mem_singleton.mpr (by decide)⟩
  have inserts := typing_inserts named idle (by rw [buffer]; exact within)
  rw [buffer] at inserts
  obtain ⟨typing, -, erases⟩ := inserts
  obtain ⟨typed, run, ⟨delta, inserted, atOnce, lines, -⟩, back, presses, restored, cursor⟩ :=
    typing free text typeable
  have shown : inserted.text = "ab\nx\tcd".toList := by
    cases congrArg Prod.snd atOnce
    rfl
  obtain ⟨after, erased, left, ends⟩ := erases (by decide)
  have joined : b.text.eraseIdx (b.cursor.offset b.document.lines - 1) = "abcd".toList := by decide
  refine ⟨m, ⟨idle, buffer, within, named, free, typeable⟩,
    ⟨typed, back, run, ?_, presses, ?_, cursor⟩, after, erased, left.trans joined, ?_⟩
  · exact (congrArg joinLines lines).trans shown
  · exact congrArg joinLines restored
  · exact Nat.succ.inj (ends (by decide)).2

/-- Where the line of the cursor holds a line feed behind the cursor, typing a character breaks the
line up, and the backspace key takes out something else. -/
theorem backspace_takes_feed_of_broken_line :
    let b := Buffer.ofDocument none none (.ofLines ["x\ny".toList])
    let backspace : KeyPress := ⟨"BACKSPACE", [], none⟩
    ∃ m back : Manager, m.Idle ∧ m.workspace.buffer = b ∧ b.cursor.Within b.document.lines ∧
      Typeable 'a' ∧ backspace.token = "BACKSPACE" ∧
      pressAll [.ofChar 'a', backspace] m =
        ([.ok (.plain "insert"), .ok (.plain "delete_backward")], back) ∧
      back.workspace.buffer.text = "axy".toList ∧ back.workspace.buffer.text ≠ b.text := by
  intro b backspace
  obtain ⟨m, idle, buffer⟩ := exists_idle b
  have within : b.cursor.Within b.document.lines := by decide
  have typeable : Typeable 'a' := by decide
  have named : backspace.token = "BACKSPACE" := rfl
  obtain ⟨_, typed, inserted, broken, cursor⟩ := Buffer.effect_replaceRange_of_within
    (b := b) (p := ⟨0, 0⟩) (q := ⟨0, 0⟩) ['a'] (by decide) (by decide) (by decide) (by decide)
    "insert_text"
  have lines : typed.document.lines = ["ax".toList, "y".toList] := by
    rw [broken]
    decide
  -- what stood behind the cursor is longer than the last line that it is broken into
  replace cursor : typed.cursor = ⟨1, -2⟩ := by
    rw [cursor]
    decide
  have above : typed.document.line 0 = .ok "ax".toList := by
    rw [Document.line_eq_ok (Int.le_refl 0) (by rw [lines]; decide), Document.lineAt, lines]
    rfl
  have ordered : Buffer.Ordered ⟨0, 2⟩ ⟨1, 0⟩ typed.document.lines := by
    rw [lines]
    exact ⟨by decide, by decide, by decide, by decide⟩
  obtain ⟨removed, erased, deleted, joined, -⟩ := Buffer.effect_replaceRange_of_within
    (p := ⟨0, 2⟩) (q := ⟨1, 0⟩) [] (Nat.lt_of_le_of_lt ordered.row_le ordered.row_lt)
    ordered.start_column ordered.row_lt ordered.stop_column "delete_range"
  have text : erased.text = "axy".toList := by
    have spliced := Buffer.text_splice [] ordered
    rw [lines] at spliced
    rw [Buffer.text, joined]
    exact spliced
  have types := idle.press_ofChar typeable
  have typing : effect (Buffer.insertText ['a'] none) b = _ := inserted
  rw [buffer, typing] at types
  have takes := (idle.withBuffer typed).press_backspace named
  have joins : effect deleteBackward { m.workspace with buffer := typed } =
      (.ok (.plain "delete_backward"), { m.workspace with buffer := erased }) := by
    have outside : ¬0 < typed.cursor.column := by
      rw [cursor]
      decide
    have below : 0 < typed.cursor.row := by
      rw [cursor]
      decide
    have found : typed.document.line (typed.cursor.row - 1) = .ok "ax".toList := by
      rwa [cursor]
    have deleting : effect (Buffer.deleteRange ⟨typed.cursor.row - 1, "ax".toList.length⟩
        ⟨typed.cursor.row, 0⟩) typed = (.ok removed, erased) := by
      rw [cursor]
      exact deleted
    have ran := effect_deleteBackward_of_above (w := { m.workspace with buffer := typed })
      outside below found
    dsimp only at ran
    rwa [deleting] at ran
  rw [joins] at takes
  have other : erased.text ≠ b.text := by
    rw [text]
    decide
  refine ⟨m, { m with workspace := { m.workspace with buffer := erased } }, idle, buffer, within,
    typeable, named, ?_, text, other⟩
  rw [pressAll, types, pressAll]
  dsimp only
  rw [takes]
  rfl

end LinkerScriptEditor.Manager
