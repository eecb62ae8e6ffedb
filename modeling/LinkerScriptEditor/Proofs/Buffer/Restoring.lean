import LinkerScriptEditor.Proofs.Buffer.Versions

/-!
# Going back and forth

A run that does not itself undo or redo leaves one entry in the history for each edit that it
records, and the entry remembers the text and the cursor from right before the edit and from right
after it. Cursor moves between two edits show in these: the cursor after the one need not be the
cursor before the other. As many edits as the limit allows can be undone, newest first, and what was
undone can be redone, each step to what the edit remembers of its own side.
-/

namespace LinkerScriptEditor

namespace Buffer

/-- Whether a request goes back or forth in the history. -/
def Operation.travels : Operation → Bool
  | .undo | .redo => true
  | _ => false

/-- Whether a request puts no line feed into a row. Only re-indented rows come from the host as they
are. -/
def Operation.Feedless : Operation → Prop
  | .reindentRows _ new _ => ∀ line ∈ new, '\n' ∉ line
  | _ => True

/-- The edits that a run records, each by the buffer right before it and the one right after it. -/
def recordings : List Operation → Buffer → List (Buffer × Buffer)
  | [], _ => []
  | op :: rest, b =>
    if b.advances op then (b, b.perform op) :: recordings rest (b.perform op)
    else recordings rest (b.perform op)

/-- The entry of an edit in the history. -/
structure Remembers (e : Edit) (change : Buffer × Buffer) : Prop where
  textBefore : e.textBefore = change.1.text
  textAfter : e.textAfter = change.2.text
  cursorBefore : e.cursorBefore = change.1.cursor
  cursorAfter : e.cursorAfter = change.2.cursor

/-- The buffer is back at the text and the cursor that it had, and at the lines if these are the
lines of a text. -/
structure Revisits (back was : Buffer) : Prop where
  text : back.text = was.text
  cursor : back.cursor = was.cursor
  lines : Separated was.document.lines → back.document.lines = was.document.lines

/-- The buffer shows a text and a cursor of the history. -/
structure Shows (b : Buffer) (text : List Char) (cursor : Position) : Prop where
  lines : b.document.lines = splitLines text
  cursor : b.cursor = cursor

variable {b : Buffer} {operations : List Operation}

theorem shows_restore (text : List Char) (cursor : Position) (history : History) (b : Buffer) :
    (b.restore text cursor history).Shows text cursor where
  lines := Document.lines_replace b.document (splitOn_ne_nil '\n' text)
  cursor := rfl

theorem Shows.revisits {was : Buffer} {text : List Char} {cursor : Position}
    (shows : b.Shows text cursor) (sameText : text = was.text) (sameCursor : cursor = was.cursor) :
    b.Revisits was where
  text := by
    rw [Buffer.text, Document.text, shows.lines, ← sameText]
    exact joinWith_splitOn '\n' text
  cursor := shows.cursor.trans sameCursor
  lines := by
    intro separated
    rw [shows.lines, sameText]
    exact separated.splitLines_joinLines

section Entries

/-- An edit is added to the history with what it remembers, and nothing else changes the history. -/
theorem history_perform {op : Operation} (onward : op.travels = false) :
    if b.advances op then
      ∃ e, Remembers e (b, b.perform op) ∧ (b.perform op).history = b.history.push e
    else (b.perform op).history = b.history := by
  have counted := counted_perform b op
  rw [Counted] at counted
  split at counted
  · next advances =>
      have pushed : ∃ label, (b.perform op).history =
          b.history.push ⟨label, b.text, (b.perform op).text, b.cursor, (b.perform op).cursor⟩ := by
        cases op with
        | undo | redo => cases onward
        | _ => exact counted.recorded
      rw [if_pos advances]
      obtain ⟨label, history⟩ := pushed
      exact ⟨_, ⟨rfl, rfl, rfl, rfl⟩, history⟩
  · next stays =>
      rw [if_neg stays]
      exact counted.history

/-- What a history holds of some edits that were added to another. -/
structure Recalls (h : History) (edits : List (Buffer × Buffer)) (start : History) : Prop where
  limit : h.limit = start.limit
  recalls : ∀ i < min edits.length h.limit, ∃ e change, h.done[i]? = some e ∧
    edits[edits.length - 1 - i]? = some change ∧ Remembers e change
  room : edits ≠ [] → h.done.length ≤ h.limit
  undone : edits ≠ [] ∨ start.undone = [] → h.undone = []
  fresh : start.done = [] → h.done.length = min edits.length h.limit

theorem recalls_nil (start : History) : Recalls start [] start where
  limit := rfl
  recalls := by
    intro i less
    rw [List.length_nil, Nat.zero_min] at less
    exact absurd less (Nat.not_lt_zero i)
  room := fun ne => absurd rfl ne
  undone := fun either => either.resolve_left fun ne => ne rfl
  fresh := by
    intro none
    rw [none]
    exact (Nat.zero_min _).symm

/-- One more edit is held in front of the others. -/
theorem Recalls.push {h start : History} {edits : List (Buffer × Buffer)} {e : Edit}
    {change : Buffer × Buffer} (held : Recalls h edits start) (remembers : Remembers e change) :
    Recalls (h.push e) (edits ++ [change]) start where
  limit := held.limit
  recalls := by
    intro i less
    have length : (edits ++ [change]).length = edits.length + 1 := List.length_append
    rw [length] at less
    change i < min (edits.length + 1) h.limit at less
    have kept : (h.push e).done[i]? = (e :: h.done)[i]? :=
      List.getElem?_take_of_lt (Nat.lt_of_lt_of_le less (Nat.min_le_right _ _))
    rw [kept, length]
    cases i with
    | zero =>
        refine ⟨e, change, rfl, ?_, remembers⟩
        exact List.getElem?_concat_length
    | succ i =>
        obtain ⟨older, earlier, done, recorded, remembers⟩ := held.recalls i (by omega)
        refine ⟨older, earlier, done, ?_, remembers⟩
        rw [List.getElem?_append_left (by omega), ← recorded]
        congr 1
        omega
  room := by
    intro ne
    change ((e :: h.done).take h.limit).length ≤ h.limit
    rw [List.length_take]
    exact Nat.min_le_left _ _
  undone := fun _ => rfl
  fresh := by
    intro none
    change ((e :: h.done).take h.limit).length = min (edits ++ [change]).length h.limit
    rw [List.length_take, List.length_cons, held.fresh none, List.length_append,
      List.length_singleton]
    omega

theorem Recalls.le_length {h start : History} {edits : List (Buffer × Buffer)}
    (held : Recalls h edits start) {m : Nat} (fits : m ≤ min edits.length h.limit) :
    m ≤ h.done.length := by
  cases m with
  | zero => exact Nat.zero_le _
  | succ i =>
      obtain ⟨e, -, done, -⟩ := held.recalls i fits
      obtain ⟨bound, -⟩ := List.getElem?_eq_some_iff.mp done
      exact bound

/-- The history holds what a run records on top of what was recorded before. -/
theorem Recalls.performAll {start : History} {edits : List (Buffer × Buffer)}
    (held : Recalls b.history edits start) (onward : ∀ op ∈ operations, op.travels = false) :
    Recalls (b.performAll operations).history (edits ++ recordings operations b) start := by
  -- on the run; each edit is added behind those that the history holds by then
  induction operations generalizing b edits with
  | nil =>
      rw [recordings, List.append_nil]
      exact held
  | cons op rest ih =>
      obtain ⟨first, onward⟩ := List.forall_mem_cons.mp onward
      have step := history_perform (b := b) first
      rw [recordings]
      split at step
      · next advances =>
          obtain ⟨e, remembers, pushed⟩ := step
          have more := held.push remembers
          rw [← pushed] at more
          rw [if_pos advances, List.append_cons]
          exact ih more onward
      · next stays =>
          rw [← step] at held
          rw [if_neg stays]
          exact ih held onward

end Entries

section Feeds

theorem separated_perform (separated : Separated b.document.lines) {op : Operation}
    (feedless : op.Feedless) : Separated (b.perform op).document.lines := by
  have replaced : ∀ start stop text label,
      Separated (Traced.effect (replaceRange start stop text label) b).2.document.lines := by
    intro start stop text label
    rw [effect_replaceRange]
    cases b.places start stop with
    | error fault => exact separated
    | ok places => exact Document.separated_update separated _ _ (separated_splitLines _).free
  have overwritten : ∀ start new label, (∀ line ∈ new, '\n' ∉ line) →
      Separated (Traced.effect (reindentRows start new label) b).2.document.lines := by
    intro start new label free
    rw [effect_reindentRows]
    split
    · split
      · exact separated
      · exact Document.separated_update separated _ _ free
    · exact separated
    · exact separated
  cases op with
  | replaceRange start stop text label => exact replaced start stop text label
  | insertText text at? => exact replaced _ _ text "insert_text"
  | deleteRange start stop => exact replaced start stop [] "delete_range"
  | setIndentation row width =>
      change Separated (Traced.effect (setIndentation row width) b).2.document.lines
      rw [effect_setIndentation]
      split
      · next r margin checked written =>
          apply overwritten
          intro line mem
          rw [List.mem_singleton.mp mem]
          exact separated.margin_free written r
      · exact separated
      · exact separated
  | reindentRows start new label => exact overwritten start new label feedless
  | setCursor p => exact separated
  | select s => exact separated
  | markSaved => exact separated
  | undo =>
      change Separated b.undo.2.document.lines
      rw [Buffer.undo]
      cases b.history.undo? with
      | none => exact separated
      | some step =>
          rw [(shows_restore step.1.textBefore step.1.cursorBefore step.2 b).lines]
          exact separated_splitLines _
  | redo =>
      change Separated b.redo.2.document.lines
      rw [Buffer.redo]
      cases b.history.redo? with
      | none => exact separated
      | some step =>
          rw [(shows_restore step.1.textAfter step.1.cursorAfter step.2 b).lines]
          exact separated_splitLines _

/-- Without line feeds put into rows, the lines around each recorded edit are those of a text. -/
theorem separated_recordings (separated : Separated b.document.lines)
    (feedless : ∀ op ∈ operations, op.Feedless) :
    ∀ change ∈ recordings operations b,
      Separated change.1.document.lines ∧ Separated change.2.document.lines := by
  induction operations generalizing b with
  | nil => exact fun _ mem => absurd mem List.not_mem_nil
  | cons op rest ih =>
      obtain ⟨first, feedless⟩ := List.forall_mem_cons.mp feedless
      have next := separated_perform separated first
      rw [recordings]
      split
      · exact List.forall_mem_cons.mpr ⟨⟨separated, next⟩, ih next feedless⟩
      · exact ih next feedless

end Feeds

section Walks

/-- Undoing takes the newest edits from those made to those undone. -/
theorem repeat?_undo (b : Buffer) {m : Nat} (le : m ≤ b.history.done.length) :
    ∃ back, repeat? undo m b = some back ∧
      back.history = ⟨b.history.limit, b.history.done.drop m,
        (b.history.done.take m).reverse ++ b.history.undone⟩ ∧
      (0 < m → ∃ e, b.history.done[m - 1]? = some e ∧ back.Shows e.textBefore e.cursorBefore) := by
  induction m with
  | zero => exact ⟨b, rfl, rfl, fun pos => absurd pos (Nat.lt_irrefl 0)⟩
  | succ m ih =>
      obtain ⟨middle, undos, history, -⟩ := ih (Nat.le_of_succ_le le)
      let e := b.history.done[m]
      have rest : b.history.done.drop m = e :: b.history.done.drop (m + 1) :=
        List.drop_eq_getElem_cons le
      let next : History := ⟨b.history.limit, b.history.done.drop (m + 1),
        e :: ((b.history.done.take m).reverse ++ b.history.undone)⟩
      have step : middle.history.undo? = some (e, next) := by
        simp only [history, History.undo?, rest]
        rfl
      let back := middle.restore e.textBefore e.cursorBefore next
      have last : middle.undo = (some (back.delta s!"undo:{e.label}"), back) := by
        rw [Buffer.undo, step]
      refine ⟨back, repeat?_succ_of_some undos last, ?_, ?_⟩
      · change next = _
        rw [List.take_succ_eq_append_getElem le, List.reverse_append]
        rfl
      · intro pos
        exact ⟨e, List.getElem?_eq_getElem le, shows_restore _ _ next middle⟩

/-- Redoing takes edits from those undone back to those made, none of which it drops while there is
room. -/
theorem repeat?_redo (b : Buffer) {j : Nat} (le : j ≤ b.history.undone.length)
    (room : ∀ i < j, b.history.done.length + i < b.history.limit) :
    ∃ again, repeat? redo j b = some again ∧
      again.history = ⟨b.history.limit, (b.history.undone.take j).reverse ++ b.history.done,
        b.history.undone.drop j⟩ ∧
      (0 < j → ∃ e, b.history.undone[j - 1]? = some e ∧ again.Shows e.textAfter e.cursorAfter) := by
  induction j with
  | zero => exact ⟨b, rfl, rfl, fun pos => absurd pos (Nat.lt_irrefl 0)⟩
  | succ j ih =>
      obtain ⟨middle, redos, history, -⟩ :=
        ih (Nat.le_of_succ_le le) fun i less => room i (Nat.lt_succ_of_lt less)
      let e := b.history.undone[j]
      have rest : b.history.undone.drop j = e :: b.history.undone.drop (j + 1) :=
        List.drop_eq_getElem_cons le
      let made := e :: ((b.history.undone.take j).reverse ++ b.history.done)
      have fits : made.length ≤ b.history.limit := by
        have last := room j (Nat.lt_succ_self j)
        simp only [made, List.length_cons, List.length_append, List.length_reverse,
          List.length_take_of_le (Nat.le_of_succ_le le)]
        omega
      let next : History := ⟨b.history.limit, made, b.history.undone.drop (j + 1)⟩
      have step : middle.history.redo? = some (e, next) := by
        simp only [history, History.redo?, rest]
        rw [List.take_of_length_le fits]
      let again := middle.restore e.textAfter e.cursorAfter next
      have last : middle.redo = (some (again.delta s!"redo:{e.label}"), again) := by
        rw [Buffer.redo, step]
      refine ⟨again, repeat?_succ_of_some redos last, ?_, ?_⟩
      · change next = _
        rw [List.take_succ_eq_append_getElem le, List.reverse_append]
        rfl
      · intro pos
        exact ⟨e, List.getElem?_eq_getElem le, shows_restore _ _ next middle⟩

/-- Among the edits undone, the next to redo is the one undone last. -/
theorem getElem?_undone {done : List Edit} (undone : List Edit) {m j : Nat} (le : m ≤ done.length)
    (pos : 0 < j) (inside : j ≤ m) :
    ((done.take m).reverse ++ undone)[j - 1]? = done[m - j]? := by
  have length : (done.take m).length = m := List.length_take_of_le le
  have place : m - 1 - (j - 1) = m - j := by omega
  rw [List.getElem?_append_left (by rw [List.length_reverse, length]; omega),
    List.getElem?_reverse (by rw [length]; omega), length, place,
    List.getElem?_take_of_lt (by omega)]

theorem undo_eq_none (done : b.history.done = []) : b.undo = (none, b) := by
  rw [Buffer.undo, History.undo?, done]

theorem redo_eq_none (undone : b.history.undone = []) : b.redo = (none, b) := by
  rw [Buffer.redo, History.redo?, undone]

end Walks

section Recalls

variable {start : History} {edits : List (Buffer × Buffer)} {m j : Nat}
  (held : Recalls b.history edits start) (fits : m ≤ min edits.length b.history.limit)
include held fits

/-- What is undone last is the edit that as many others came after as were undone before it. -/
theorem Recalls.exists_undos :
    ∃ back, repeat? undo m b = some back ∧
      back.history = ⟨b.history.limit, b.history.done.drop m,
        (b.history.done.take m).reverse ++ b.history.undone⟩ ∧
      (0 < m → ∃ change, edits[edits.length - m]? = some change ∧ back.Revisits change.1) := by
  obtain ⟨back, undos, left, shows⟩ := repeat?_undo b (held.le_length fits)
  refine ⟨back, undos, left, ?_⟩
  intro pos
  obtain ⟨e, change, done, recorded, remembers⟩ := held.recalls (m - 1) (by omega)
  obtain ⟨newest, found, shown⟩ := shows pos
  obtain rfl : e = newest := Option.some.inj (done.symm.trans found)
  refine ⟨change, ?_, shown.revisits remembers.textBefore remembers.cursorBefore⟩
  rw [← recorded]
  congr 1
  omega

/-- What is redone last is an edit that was undone, and redoing all of them leaves none that was
undone since. -/
theorem Recalls.exists_redos {back : Buffer} (le : j ≤ m)
    (left : back.history = ⟨b.history.limit, b.history.done.drop m,
      (b.history.done.take m).reverse ++ b.history.undone⟩) :
    ∃ again, repeat? redo j back = some again ∧
      again.history.undone = back.history.undone.drop j ∧
      (0 < j → ∃ change, edits[edits.length - m + j - 1]? = some change ∧
        again.Revisits change.2) := by
  have enough := held.le_length fits
  have undone : back.history.undone =
      (b.history.done.take m).reverse ++ b.history.undone := by rw [left]
  have available : j ≤ back.history.undone.length := by
    rw [undone, List.length_append, List.length_reverse, List.length_take_of_le enough]
    omega
  -- undoing has made the room that redoing takes
  have room : ∀ i < j, back.history.done.length + i < back.history.limit := by
    intro i less
    have some : edits ≠ [] := by
      rw [List.ne_nil_iff_length_pos]
      omega
    have all := held.room some
    rw [left, List.length_drop]
    dsimp only
    omega
  obtain ⟨again, redos, rest, shows⟩ := repeat?_redo back available room
  refine ⟨again, redos, by rw [rest], ?_⟩
  intro pos
  obtain ⟨e, change, done, recorded, remembers⟩ := held.recalls (m - j) (by omega)
  obtain ⟨next, found, shown⟩ := shows pos
  have same : back.history.undone[j - 1]? = b.history.done[m - j]? := by
    rw [undone]
    exact getElem?_undone _ enough pos le
  obtain rfl : e = next := Option.some.inj (done.symm.trans (same.symm.trans found))
  refine ⟨change, ?_, shown.revisits remembers.textAfter remembers.cursorAfter⟩
  rw [← recorded]
  congr 1
  omega

end Recalls

/-- After a run that records `n` edits, as many as the limit allows can be undone, and what was
undone can be redone. Undoing `m` of them goes back to right before edit `n - m`, counted from
zero, and redoing `j` of these goes to right after edit `n - m + j - 1`. Cursors come back with the
text, wherever they were moved in between, and the lines come back unless a row held a line feed.
Where nothing is left to undo or redo, the buffer stays as it is. -/
theorem undos_then_redos (b : Buffer) (onward : ∀ op ∈ operations, op.travels = false) :
    let after := b.performAll operations
    let edits := recordings operations b
    let n := edits.length
    let kept := min n b.history.limit
    (Separated b.document.lines → (∀ op ∈ operations, op.Feedless) →
      ∀ change ∈ edits,
        Separated change.1.document.lines ∧ Separated change.2.document.lines) ∧
    ∀ m ≤ kept, ∃ back, repeat? undo m after = some back ∧
      (0 < m → ∃ change, edits[n - m]? = some change ∧ back.Revisits change.1) ∧
      (b.history.done = [] → m = kept → back.undo = (none, back)) ∧
      ∀ j ≤ m, ∃ again, repeat? redo j back = some again ∧
        (0 < j → ∃ change, edits[n - m + j - 1]? = some change ∧ again.Revisits change.2) ∧
        (j = m → (0 < n ∨ b.history.undone = []) → again.redo = (none, again)) := by
  intro after edits n kept
  have held : Recalls after.history edits b.history :=
    (recalls_nil b.history).performAll onward
  have limit : kept = min edits.length after.history.limit := by rw [held.limit]
  refine ⟨separated_recordings, ?_⟩
  intro m fits
  rw [limit] at fits
  obtain ⟨back, undos, left, goneBack⟩ := held.exists_undos fits
  refine ⟨back, undos, goneBack, ?_, ?_⟩
  · intro none all
    apply undo_eq_none
    rw [left, List.drop_eq_nil_iff, held.fresh none]
    omega
  intro j le
  obtain ⟨again, redos, rest, goneOn⟩ := held.exists_redos fits le left
  refine ⟨again, redos, goneOn, ?_⟩
  intro all either
  have length : (after.history.done.take m).reverse.length = m := by
    rw [List.length_reverse, List.length_take_of_le (held.le_length fits)]
  apply redo_eq_none
  rw [rest, left, all, List.drop_left' length]
  apply held.undone
  exact either.imp_left List.ne_nil_of_length_pos

/-- Three edits with cursor moves in between, of which the limit keeps two. -/
theorem undos_then_redos_at_limit :
    let b : Buffer := { ofText none none [] with history := ⟨2, [], []⟩ }
    let operations : List Operation := [.insertText ['a'] none, .setCursor ⟨0, 0⟩,
      .insertText ['b'] none, .setCursor ⟨0, 2⟩, .insertText ['\n'] none]
    (∀ op ∈ operations, op.travels = false) ∧
      ∃ back, repeat? undo 2 (b.performAll operations) = some back ∧
        back.text = ['a'] ∧ back.cursor = ⟨0, 0⟩ ∧ back.undo = (none, back) ∧
        ∃ again, repeat? redo 1 back = some again ∧
          again.text = ['b', 'a'] ∧ again.cursor = ⟨0, 1⟩ := by
  intro b operations
  have onward : ∀ op ∈ operations, op.travels = false := by
    simp [operations, Operation.travels]
  have count : (recordings operations b).length = 3 := by decide
  have second : (recordings operations b)[1]?.map (fun change =>
      ((change.1.text, change.1.cursor), (change.2.text, change.2.cursor))) =
        some ((['a'], ⟨0, 0⟩), (['b', 'a'], ⟨0, 1⟩)) := by decide
  obtain ⟨-, walks⟩ := undos_then_redos b onward
  rw [count] at walks
  obtain ⟨back, undos, goneBack, last, redos⟩ := walks 2 (Nat.le_refl 2)
  obtain ⟨change, recorded, revisits⟩ := goneBack Nat.two_pos
  obtain ⟨again, redone, goneOn, -⟩ := redos 1 (Nat.le_succ 1)
  obtain ⟨same, recorded', revisits'⟩ := goneOn Nat.one_pos
  rw [recorded] at second
  obtain rfl : same = change := Option.some.inj (recorded'.symm.trans recorded)
  simp only [Option.map_some, Option.some.injEq, Prod.mk.injEq] at second
  obtain ⟨⟨textBefore, cursorBefore⟩, textAfter, cursorAfter⟩ := second
  exact ⟨onward, back, undos, revisits.text.trans textBefore, revisits.cursor.trans cursorBefore,
    last rfl rfl, again, redone, revisits'.text.trans textAfter,
    revisits'.cursor.trans cursorAfter⟩

/-- A row that is given with a line feed in it is one row until it is redone, and two after that. -/
theorem redo_of_row_with_feed :
    let b := ofText none none ['a']
    let edited := b.perform (.reindentRows 0 [['x', '\n', 'y']] "edit")
    (∀ line ∈ b.document.lines, '\n' ∉ line) ∧
      (recordings [.reindentRows 0 [['x', '\n', 'y']] "edit"] b).map Prod.snd = [edited] ∧
      ∃ back again, repeat? undo 1 edited = some back ∧ repeat? redo 1 back = some again ∧
        edited.document.lines = [['x', '\n', 'y']] ∧ again.document.lines = [['x'], ['y']] := by
  intro b edited
  refine ⟨by decide, rfl, edited.undo.2, edited.undo.2.redo.2, rfl, rfl, rfl, rfl⟩

end Buffer

end LinkerScriptEditor
