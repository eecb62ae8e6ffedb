import LinkerScriptEditor.Proofs.Buffer.Operation
import LinkerScriptEditor.Proofs.Document.Lines

/-!
# The timeline of a buffer

The edits of a history follow one another: each starts with the text that the one before it left,
and the current text lies between the edits made and the edits undone. Undoing and redoing move
along this line. Redoing needs no room of its own, because an edit that is undone keeps its place
under the limit.
-/

namespace LinkerScriptEditor

namespace History

/-- The edits, newest first, lead to a text: the newest one does, and each leads to the text from
which the next newer one starts. -/
def LeadTo (text : List Char) : List Edit → Prop
  | [] => True
  | e :: older => e.textAfter = text ∧ LeadTo e.textBefore older

/-- The edits lead on from a text: the first one does, and each starts from the text to which the
one before it leads. -/
def LeadFrom (text : List Char) : List Edit → Prop
  | [] => True
  | e :: later => e.textBefore = text ∧ LeadFrom e.textAfter later

/-- The edits form one line of texts through the current text, and all of them fit the limit. -/
structure LinearAt (h : History) (text : List Char) : Prop where
  size_le : h.done.length + h.undone.length ≤ h.limit
  done_lead : LeadTo text h.done
  undone_lead : LeadFrom text h.undone

theorem linearAt_nil (limit : Nat) (text : List Char) :
    LinearAt ⟨limit, [], []⟩ text where
  size_le := Nat.zero_le limit
  done_lead := trivial
  undone_lead := trivial

theorem LeadTo.take {edits : List Edit} {text : List Char} (lead : LeadTo text edits)
    (count : Nat) : LeadTo text (edits.take count) := by
  induction edits generalizing text count with
  | nil =>
      rw [List.take_nil]
      exact lead
  | cons e older ih =>
      cases count with
      | zero => trivial
      | succ count =>
          obtain ⟨after, lead⟩ := lead
          exact ⟨after, ih lead count⟩

variable {h next : History} {text : List Char} {e : Edit}

/-- A new edit drops what was undone, and the oldest edits if there is no room. -/
theorem LinearAt.push (linear : h.LinearAt text) (before : e.textBefore = text) :
    (h.push e).LinearAt e.textAfter where
  size_le := by
    simp only [History.push, List.length_take, List.length_nil]
    omega
  done_lead := by
    apply LeadTo.take
    constructor
    · rfl
    · rw [before]
      exact linear.done_lead
  undone_lead := trivial

theorem undo?_eq_some (undo : h.undo? = some (e, next)) :
    ∃ rest, h.done = e :: rest ∧ next = ⟨h.limit, rest, e :: h.undone⟩ := by
  cases done : h.done with
  | nil => simp [undo?, done] at undo
  | cons newest rest =>
      simp only [undo?, done, Option.some.injEq, Prod.mk.injEq] at undo
      obtain ⟨rfl, rfl⟩ := undo
      exact ⟨rest, rfl, rfl⟩

theorem limit_undo? (undo : h.undo? = some (e, next)) : next.limit = h.limit := by
  obtain ⟨rest, -, rfl⟩ := undo?_eq_some undo
  rfl

theorem limit_redo? (redo : h.redo? = some (e, next)) : next.limit = h.limit := by
  cases undone : h.undone with
  | nil => simp [redo?, undone] at redo
  | cons sooner rest =>
      simp only [redo?, undone, Option.some.injEq, Prod.mk.injEq] at redo
      rw [← redo.2]

theorem LinearAt.undo (linear : h.LinearAt text) (undo : h.undo? = some (e, next)) :
    next.LinearAt e.textBefore := by
  obtain ⟨rest, done, rfl⟩ := undo?_eq_some undo
  have size := linear.size_le
  have lead := linear.done_lead
  rw [done] at size lead
  obtain ⟨after, older⟩ := lead
  constructor
  · simp only [List.length_cons] at size ⊢
    omega
  · exact older
  · constructor
    · rfl
    · rw [after]
      exact linear.undone_lead

/-- Redoing adds to the edits made and takes none of them away. -/
theorem LinearAt.redo?_eq_some (linear : h.LinearAt text) (redo : h.redo? = some (e, next)) :
    ∃ rest, h.undone = e :: rest ∧ next = ⟨h.limit, e :: h.done, rest⟩ := by
  cases undone : h.undone with
  | nil => simp [redo?, undone] at redo
  | cons sooner rest =>
      simp only [redo?, undone, Option.some.injEq, Prod.mk.injEq] at redo
      obtain ⟨rfl, rfl⟩ := redo
      have size := linear.size_le
      rw [undone, List.length_cons] at size
      have room : (sooner :: h.done).length ≤ h.limit := by
        rw [List.length_cons]
        omega
      rw [List.take_of_length_le room]
      exact ⟨rest, rfl, rfl⟩

theorem LinearAt.redo (linear : h.LinearAt text) (redo : h.redo? = some (e, next)) :
    next.LinearAt e.textAfter := by
  obtain ⟨rest, undone, rfl⟩ := linear.redo?_eq_some redo
  have size := linear.size_le
  have lead := linear.undone_lead
  rw [undone] at size lead
  obtain ⟨before, later⟩ := lead
  constructor
  · simp only [List.length_cons] at size ⊢
    omega
  · constructor
    · rfl
    · rw [before]
      exact linear.done_lead
  · exact later

/-- What was just undone is what is redone next, and redoing it gives the history back. -/
theorem LinearAt.redo?_of_undo? (linear : h.LinearAt text) (undo : h.undo? = some (e, next)) :
    next.redo? = some (e, h) := by
  obtain ⟨rest, done, rfl⟩ := undo?_eq_some undo
  have size := linear.size_le
  have room : (e :: rest).length ≤ h.limit := by
    rw [← done]
    omega
  simp only [redo?]
  rw [List.take_of_length_le room, ← done]

end History

namespace Buffer

/-- The history of a buffer is a line through its text. -/
def Linear (b : Buffer) : Prop := b.history.LinearAt b.text

/-- All that an operation can do to a buffer: it moves the cursor, the selection or the mark for
unsaved changes, commits an edit, or goes to the text of an edit undone or redone. -/
inductive Change (b : Buffer) : Buffer → Prop
  | idle (cursor : Position) (selection : Option Selection) (dirty : Bool) :
    Change b { b with cursor, selection, document := { b.document with dirty } }
  | edit (label : String) (lines : List Line) (cursor : Position) :
    Change b (commit label b { b with document := b.document.replace lines, cursor })
  | undo : Change b b.undo.2
  | redo : Change b b.redo.2

theorem change_self (b : Buffer) : Change b b := .idle b.cursor b.selection b.document.dirty

theorem change_replaceRange (start stop : Position) (text : List Char) (label : String)
    (b : Buffer) : Change b (replaceRange start stop text label b).state := by
  rw [Traced.state_eq, effect_replaceRange]
  cases b.places start stop with
  | error fault => exact change_self b
  | ok places => exact .edit label _ _

theorem change_reindentRows (start : Int) (new : List Line) (label : String) (b : Buffer) :
    Change b (reindentRows start new label b).state := by
  rw [Traced.state_eq, effect_reindentRows]
  cases b.document.checkRow start with
  | error fault => exact change_self b
  | ok first =>
      cases b.document.checkRow (start + new.length - 1) with
      | error fault => exact change_self b
      | ok last =>
          dsimp only
          split
          · exact change_self b
          · exact .edit label _ _

theorem change_setIndentation (row width : Int) (b : Buffer) :
    Change b (setIndentation row width b).state := by
  rw [Traced.state_eq, effect_setIndentation]
  cases b.document.checkRow row with
  | error fault => exact change_self b
  | ok r =>
      cases Margin.write width with
      | error fault => exact change_self b
      | ok margin => exact change_reindentRows row _ _ b

theorem change_perform (b : Buffer) (operation : Operation) : Change b (b.perform operation) := by
  cases operation with
  | replaceRange start stop text label => exact change_replaceRange start stop text label b
  | insertText text at? => exact change_replaceRange _ _ text _ b
  | deleteRange start stop => exact change_replaceRange start stop [] _ b
  | setIndentation row width => exact change_setIndentation row width b
  | reindentRows start new label => exact change_reindentRows start new label b
  | setCursor p => exact .idle p b.selection b.document.dirty
  | select s => exact .idle b.cursor s b.document.dirty
  | markSaved => exact .idle b.cursor b.selection false
  | undo => exact .undo
  | redo => exact .redo

variable {b after : Buffer}

theorem text_restore (text : List Char) (cursor : Position) (history : History) (b : Buffer) :
    (b.restore text cursor history).text = text := by
  change (b.document.replace (splitLines text)).text = text
  rw [Document.text_replace _ (splitOn_ne_nil _ _)]
  exact joinWith_splitOn '\n' text

theorem Linear.undo (linear : b.Linear) : b.undo.2.Linear := by
  rw [Buffer.undo]
  cases undo : b.history.undo? with
  | none => exact linear
  | some step =>
      obtain ⟨e, next⟩ := step
      change next.LinearAt (b.restore e.textBefore e.cursorBefore next).text
      rw [text_restore]
      exact History.LinearAt.undo linear undo

theorem Linear.redo (linear : b.Linear) : b.redo.2.Linear := by
  rw [Buffer.redo]
  cases redo : b.history.redo? with
  | none => exact linear
  | some step =>
      obtain ⟨e, next⟩ := step
      change next.LinearAt (b.restore e.textAfter e.cursorAfter next).text
      rw [text_restore]
      exact History.LinearAt.redo linear redo

theorem Linear.change (linear : b.Linear) (change : Change b after) : after.Linear := by
  cases change with
  | idle cursor selection dirty => exact linear
  | edit label lines cursor => exact History.LinearAt.push linear rfl
  | undo => exact linear.undo
  | redo => exact linear.redo

/-- No change leaves a document without a line. -/
theorem Change.ne_nil (change : Change b after) (ne : b.document.lines ≠ []) :
    after.document.lines ≠ [] := by
  cases change with
  | idle cursor selection dirty => exact ne
  | edit label lines cursor => exact Document.atLeastOne_ne_nil lines
  | undo =>
      rw [Buffer.undo]
      cases b.history.undo? with
      | none => exact ne
      | some step => exact Document.atLeastOne_ne_nil _
  | redo =>
      rw [Buffer.redo]
      cases b.history.redo? with
      | none => exact ne
      | some step => exact Document.atLeastOne_ne_nil _

theorem limit_change (change : Change b after) : after.history.limit = b.history.limit := by
  cases change with
  | idle cursor selection dirty => rfl
  | edit label lines cursor => rfl
  | undo =>
      rw [Buffer.undo]
      cases undo : b.history.undo? with
      | none => rfl
      | some step => exact History.limit_undo? undo
  | redo =>
      rw [Buffer.redo]
      cases redo : b.history.redo? with
      | none => rfl
      | some step => exact History.limit_redo? redo

theorem limit_performAll (b : Buffer) (operations : List Operation) :
    (b.performAll operations).history.limit = b.history.limit := by
  induction operations generalizing b with
  | nil => rfl
  | cons operation rest ih =>
      exact (ih (b.perform operation)).trans (limit_change (change_perform b operation))

theorem Linear.performAll (linear : b.Linear) (operations : List Operation) :
    (b.performAll operations).Linear := by
  induction operations generalizing b with
  | nil => exact linear
  | cons operation rest ih => exact ih (linear.change (change_perform b operation))

/-- Repeats a step through the history. There is no result if the step fails before it was taken
often enough. -/
def repeat? (step : Buffer → Option Delta × Buffer) : Nat → Buffer → Option Buffer
  | 0, b => some b
  | k + 1, b =>
    match step b with
    | (some _, next) => repeat? step k next
    | (none, _) => none

theorem repeat?_succ_of_some {step : Buffer → Option Delta × Buffer} {k : Nat} {middle : Buffer}
    {delta : Delta} (first : repeat? step k b = some middle)
    (last : step middle = (some delta, after)) : repeat? step (k + 1) b = some after := by
  induction k generalizing b with
  | zero =>
      cases first
      simp only [repeat?, last]
  | succ k ih =>
      rw [repeat?] at first ⊢
      cases taken : step b with
      | mk given next =>
          rw [taken] at first
          cases given with
          | none => cases first
          | some delta => exact ih first

/-- An undo that succeeds is taken back by a redo, also from another buffer with the history that
the undo left. -/
theorem Linear.redo_of_undo {next other : Buffer} {delta : Delta} (linear : b.Linear)
    (undo : b.undo = (some delta, next)) (history : other.history = next.history) :
    ∃ delta again, other.redo = (some delta, again) ∧ again.text = b.text ∧
      again.history = b.history := by
  rw [Buffer.undo] at undo
  cases step : b.history.undo? with
  | none =>
      rw [step] at undo
      cases undo
  | some taken =>
      obtain ⟨e, rest⟩ := taken
      rw [step] at undo
      cases undo
      have left : other.history = rest := history
      have redo : other.history.redo? = some (e, b.history) := by
        rw [left]
        exact History.LinearAt.redo?_of_undo? linear step
      obtain ⟨older, done, -⟩ := History.undo?_eq_some step
      have lead := linear.done_lead
      rw [done] at lead
      let again := other.restore e.textAfter e.cursorAfter b.history
      refine ⟨again.delta s!"redo:{e.label}", again, ?_, ?_, rfl⟩
      · rw [Buffer.redo, redo]
      · rw [text_restore]
        exact lead.1

theorem Linear.redos_of_undos {k : Nat} {b back : Buffer} (linear : b.Linear)
    (undos : repeat? Buffer.undo k b = some back) :
    ∃ again, repeat? Buffer.redo k back = some again ∧ again.text = b.text ∧
      again.history = b.history := by
  induction k generalizing b with
  | zero =>
      cases undos
      exact ⟨back, rfl, rfl, rfl⟩
  | succ k ih =>
      rw [repeat?] at undos
      cases undo : b.undo with
      | mk given next =>
          rw [undo] at undos
          cases given with
          | none => cases undos
          | some delta =>
              have nextLinear : next.Linear := by
                have := linear.undo
                rwa [undo] at this
              obtain ⟨middle, redos, -, history⟩ := ih nextLinear undos
              obtain ⟨delta, again, last, text, same⟩ := linear.redo_of_undo undo history
              exact ⟨again, repeat?_succ_of_some redos last, text, same⟩

/-- Whatever is done to a buffer that starts with an empty history, the history stays one line of
edits through its text. A redo keeps every edit made, and as many redos as there were undos give
back the text and the history. -/
theorem performAll_timeline (b : Buffer) (limit : Nat) (operations : List Operation) :
    let after := performAll { b with history := ⟨limit, [], []⟩ } operations
    after.history.limit = limit ∧
      after.history.LinearAt after.text ∧
      (∀ e next, after.history.redo? = some (e, next) → next.done = e :: after.history.done) ∧
      ∀ k back, repeat? undo k after = some back →
        ∃ again, repeat? redo k back = some again ∧ again.text = after.text ∧
          again.history = after.history := by
  intro after
  have start : Linear { b with history := ⟨limit, [], []⟩ } := History.linearAt_nil limit b.text
  have linear : after.Linear := start.performAll operations
  refine ⟨limit_performAll _ operations, linear, ?_, ?_⟩
  · intro e next redo
    obtain ⟨rest, -, rfl⟩ := History.LinearAt.redo?_eq_some linear redo
    rfl
  · intro k back undos
    exact linear.redos_of_undos undos

end Buffer

end LinkerScriptEditor
