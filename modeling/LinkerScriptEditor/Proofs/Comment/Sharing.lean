import LinkerScriptEditor.Proofs.Comment.Tracking

/-!
# One tracker for many snapshots

Documents are made from texts, from lines and from earlier documents, and each has an identity of
its own. Questions about any of them, new or old, go to one tracker in any order. The answers are
those of a fresh tracker for every question.
-/

namespace LinkerScriptEditor

/-- What a tracker is asked about a snapshot. -/
inductive Question
  | startsInside (row : Int)
  | commentSpans (row : Int)
  | isInsideComment (p : Position)
  | visible (row : Int)
  | decision (style : Datum) (unit row : Int)

inductive Answer
  | inside (inside : Bool)
  | spans (spans : List Span)
  | text (line : Line)
  | decision (decision : Indent.Decision)
deriving DecidableEq

/-- Puts a question about a snapshot to a tracker. -/
def Question.ask (s : Snapshot) : Question → Snapshot.Query Answer
  | startsInside row => .inside <$> s.startsInside row
  | commentSpans row => .spans <$> s.commentSpans row
  | isInsideComment p => .inside <$> s.isInsideComment p
  | visible row => .text <$> s.visible row
  | decision style unit row =>
    .decision <$> Indent.decideAsked style (.tracked s.key s.rows) s.document unit row

/-- The documents made so far, oldest first. The place of a document is its identity. -/
abbrev Archive := List Document

/-- How a document is made. -/
inductive Making
  | ofText (text : List Char)
  | ofLines (lines : List Line)
  | replace (old : Nat) (lines : List Line)
  | update (old : Nat) (start stop : Int) (new : List Line)

def Making.result? (archive : Archive) : Making → Option Document
  | ofText text => some (.ofText text)
  | ofLines lines => some (.ofLines lines)
  | replace old lines => archive[old]?.map (·.replace lines)
  | update old start stop new => archive[old]?.map (·.update start stop new)

inductive Event
  | make (making : Making)
  | ask (id : Nat) (question : Question)

/-- The answers to the questions among the events, in order. Only documents that exist are asked
about. What becomes of the tracker between two questions is a parameter. -/
def answers (between : Tracker → Tracker) (archive : Archive) (t : Tracker) :
    List Event → List (Except Fault Answer)
  | [] => []
  | .make making :: rest =>
    answers between (archive ++ (making.result? archive).toList) t rest
  | .ask id question :: rest =>
    match archive[id]? with
    | none => answers between archive t rest
    | some d =>
      let (answer, next) := (question.ask ⟨id, d⟩).run.run t
      answer :: answers between archive (between next) rest

namespace Question

/-- The answer that follows from the lines of a document alone. -/
def plainAnswer (d : Document) : Question → Except Fault Answer
  | startsInside row => return .inside (Comment.startsInside d.lines (← d.checkRow row))
  | commentSpans row => return .spans (← d.commentSpans row)
  | isInsideComment p => return .inside (← d.isInsideComment p)
  | visible row => do
    let _ ← d.line row
    return .text (Comment.visible d.lines (← d.checkRow row))
  | decision style unit row => do
    match ← d.checkRow row with
    | 0 => return .decision ⟨0, .firstLine, none⟩
    | above + 1 =>
      return .decision (Indent.decideRow (← Indent.Style.ofDatum style) d.lines unit (above + 1))

open Tracker

variable {key : SnapshotKey} {lines : List Line} {α : Type}

/-- A question that is not refused is answered by the tracker. -/
theorem answers_lift {x : StateM Tracker α} {a : α} (answered : Answers key lines x a)
    (f : α → Answer) :
    Answers key lines (f <$> (liftM x : Snapshot.Query α)).run (.ok (f a)) := by
  intro t coherent
  obtain ⟨value, rest⟩ := answered t coherent
  have run : (f <$> (liftM x : Snapshot.Query α)).run.run t =
      (.ok (f (x.run t).1), (x.run t).2) := rfl
  rw [run, value]
  exact ⟨rfl, rest⟩

theorem answers_ask (s : Snapshot) (question : Question) :
    Answers s.key s.document.lines (question.ask s).run (question.plainAnswer s.document) := by
  obtain ⟨id, d⟩ := s
  cases question with
  | startsInside row =>
      simp only [ask, Snapshot.startsInside, plainAnswer]
      cases d.checkRow row with
      | error fault => exact answers_pure _
      | ok r => exact answers_lift (answers_startsInside _ d.lines r) _
  | commentSpans row =>
      simp only [ask, Snapshot.commentSpans, plainAnswer, Document.commentSpans]
      cases d.checkRow row with
      | error fault => exact answers_pure _
      | ok r => exact answers_lift (answers_spans _ d.lines r) _
  | isInsideComment p =>
      simp only [ask, Snapshot.isInsideComment, plainAnswer, Document.isInsideComment]
      cases d.checkPosition p with
      | error fault => exact answers_pure _
      | ok place => exact answers_lift (answers_isInside _ d.lines place) _
  | visible row =>
      simp only [ask, Snapshot.visible, plainAnswer]
      cases d.line row with
      | error fault => exact answers_pure _
      | ok line =>
          cases d.checkRow row with
          | error fault => exact answers_pure _
          | ok r => exact answers_lift (answers_visible _ d.lines r) _
  | decision style unit row =>
      simp only [ask, Indent.decideAsked, plainAnswer]
      cases d.checkRow row with
      | error fault => exact answers_pure _
      | ok r =>
          cases r with
          | zero => exact answers_pure _
          | succ above =>
              cases Indent.Style.ofDatum style with
              | error fault => exact answers_pure _
              | ok style =>
                  exact answers_lift (Indent.answers_decideWith _ d.lines style unit (above + 1))
                    .decision

end Question

/-- What the tracker remembers is about a document of the archive, and right. -/
structure Archive.Knows (archive : Archive) (t : Tracker) : Prop where
  known : ∀ key, t.snapshot = some key → key.id < archive.length
  coherent : ∀ id d, archive[id]? = some d → t.Coherent (Snapshot.key ⟨id, d⟩) d.lines

namespace Archive

variable {archive : Archive} {t : Tracker}

theorem knows_fresh (archive : Archive) : archive.Knows .fresh where
  known := nofun
  coherent := nofun

/-- A new document has an identity that the tracker has never seen. -/
theorem Knows.append (knows : archive.Knows t) (new : List Document) :
    Knows (archive ++ new) t where
  known := by
    intro key same
    have := knows.known key same
    rw [List.length_append]
    omega
  coherent := by
    intro id d found same
    have old : id < archive.length := knows.known _ same
    rw [List.getElem?_append_left old] at found
    exact knows.coherent id d found same

/-- A question turns the tracker to one document; what it knows of the others is forgotten. -/
theorem Knows.ask (knows : archive.Knows t) {id : Nat} {d : Document}
    (found : archive[id]? = some d) (question : Question) :
    ((question.ask ⟨id, d⟩).run.run t).1 = question.plainAnswer d ∧
      archive.Knows ((question.ask ⟨id, d⟩).run.run t).2 := by
  obtain ⟨answer, coherent, turned⟩ :=
    Question.answers_ask ⟨id, d⟩ question t (knows.coherent id d found)
  refine ⟨answer, ?_⟩
  rcases turned with same | turned
  · rw [same]
    exact knows
  · constructor
    · intro key same
      rw [turned] at same
      cases same
      exact (List.getElem?_eq_some_iff.mp found).1
    · intro other document foundOther same
      have key : Snapshot.key ⟨id, d⟩ = Snapshot.key ⟨other, document⟩ :=
        Option.some.inj (turned.symm.trans same)
      obtain rfl : id = other := congrArg SnapshotKey.id key
      rw [found] at foundOther
      cases foundOther
      exact coherent same

/-- The answers that follow from the documents alone. -/
def plainAnswers (archive : Archive) : List Event → List (Except Fault Answer)
  | [] => []
  | .make making :: rest => plainAnswers (archive ++ (making.result? archive).toList) rest
  | .ask id question :: rest =>
    match archive[id]? with
    | none => plainAnswers archive rest
    | some d => question.plainAnswer d :: plainAnswers archive rest

theorem Knows.answers_eq (between : Tracker → Tracker)
    (keeps : ∀ archive t, Knows archive t → Knows archive (between t))
    (knows : archive.Knows t) (events : List Event) :
    answers between archive t events = plainAnswers archive events := by
  induction events generalizing archive t with
  | nil => rfl
  | cons event rest ih =>
      cases event with
      | make making => exact ih (knows.append _)
      | ask id question =>
          rw [answers, plainAnswers]
          cases found : archive[id]? with
          | none => exact ih knows
          | some d =>
              obtain ⟨value, after⟩ := knows.ask found question
              rcases run : (question.ask ⟨id, d⟩).run.run t with ⟨answer, next⟩
              rw [run] at value after
              simp only [run]
              rw [ih (keeps archive next after)]
              exact congrArg (· :: plainAnswers archive rest) value

end Archive

/-- Whatever documents are made and whatever is asked about them in whatever order, a tracker that
is handed on from question to question answers as a fresh one does each time. -/
theorem answers_shared_tracker (archive : Archive) (events : List Event) :
    answers id archive .fresh events = answers (fun _ => .fresh) archive .fresh events := by
  have shared := Archive.Knows.answers_eq id (fun _ _ knows => knows)
    archive.knows_fresh events
  have renewed := Archive.Knows.answers_eq (fun _ => .fresh)
    (fun archive _ _ => archive.knows_fresh) archive.knows_fresh events
  rw [shared, renewed]

end LinkerScriptEditor
