import LinkerScriptEditor.Indent

/-!
# Coherence of comment trackers

A tracker remembers marks for the rows of one snapshot. Each mark is the state in which its row
starts when all rows above it are scanned, and marks of one snapshot are never read for another.
So a tracker that is shared by many questions about many snapshots answers each of them as a fresh
tracker does.
-/

namespace LinkerScriptEditor

namespace Comment

theorem endsInside_nil (inside : Bool) : endsInside inside [] = inside := by
  cases inside <;> rfl

/-- Rows past the last one count as empty lines. -/
theorem startsInside_succ (lines : List Line) (row : Nat) :
    startsInside lines (row + 1) = endsInside (startsInside lines row) (lines.getD row []) := by
  rw [startsInside, List.take_add_one, List.foldl_append, List.getD_eq_getElem?_getD]
  cases lines[row]? with
  | none => exact (endsInside_nil _).symm
  | some line => rfl

end Comment

namespace Tracker

variable {key : SnapshotKey} {lines : List Line} {marks : Array Bool} {t : Tracker} {α β : Type}

/-- There is a mark, and every mark says whether its row starts inside a comment. -/
structure Marked (lines : List Line) (marks : Array Bool) : Prop where
  size_pos : 0 < marks.size
  mark : ∀ row, row < marks.size → marks.getD row false = Comment.startsInside lines row

theorem marked_start (lines : List Line) : Marked lines #[false] where
  size_pos := Nat.one_pos
  mark := by
    intro row bound
    obtain rfl : row = 0 := Nat.lt_one_iff.mp bound
    rfl

theorem Marked.push (marked : Marked lines marks) :
    Marked lines (marks.push (Comment.endsInside (marks.getD (marks.size - 1) false)
      (lines.toArray.getD (marks.size - 1) []))) where
  size_pos := by simp
  mark := by
    intro row bound
    have pos := marked.size_pos
    rw [Array.size_push] at bound
    by_cases old : row < marks.size
    · rw [← marked.mark row old]
      simp [Array.getD_eq_getD_getElem?, Array.getElem?_push, Nat.ne_of_lt old]
    · obtain rfl : row = marks.size := by omega
      have last : marks.size - 1 + 1 = marks.size := Nat.sub_add_cancel pos
      rw [← last, Comment.startsInside_succ, ← marked.mark _ (by omega)]
      simp [Array.getD_eq_getD_getElem?, last]

theorem Marked.pass (marked : Marked lines marks) (n : Nat) :
    Marked lines (pass lines.toArray n marks) := by
  induction n generalizing marks with
  | zero => exact marked
  | succ n ih => exact ih marked.push

theorem size_pass (rows : Array Line) (n : Nat) (marks : Array Bool) :
    (pass rows n marks).size = marks.size + n := by
  induction n generalizing marks with
  | zero => rfl
  | succ n ih =>
      rw [pass, ih, Array.size_push]
      omega

theorem lt_size_reach (rows : Array Line) (row : Nat) (marks : Array Bool) :
    row < (reach rows row marks).size := by
  rw [reach, size_pass]
  omega

/-- What a tracker remembers of a snapshot is right, if it remembers anything of it. -/
def Coherent (key : SnapshotKey) (lines : List Line) (t : Tracker) : Prop :=
  t.snapshot = some key → Marked lines t.marks

theorem coherent_fresh (key : SnapshotKey) (lines : List Line) : Coherent key lines .fresh := nofun

theorem Coherent.sync (coherent : Coherent key lines t) : Marked lines (t.sync key).marks := by
  rw [Tracker.sync]
  split
  · next same => exact coherent same
  · exact marked_start lines

/-- On a coherent tracker a question has this answer. The tracker stays coherent, and it is turned
to the snapshot unless it is not used at all. -/
def Answers (key : SnapshotKey) (lines : List Line) (question : StateM Tracker α) (answer : α) :
    Prop :=
  ∀ t, Coherent key lines t →
    (question.run t).1 = answer ∧ Coherent key lines (question.run t).2 ∧
      ((question.run t).2 = t ∨ (question.run t).2.snapshot = some key)

theorem answers_pure (answer : α) : Answers key lines (pure answer) answer :=
  fun _ coherent => ⟨rfl, coherent, .inl rfl⟩

theorem Answers.bind {x : StateM Tracker α} {a : α} {f : α → StateM Tracker β} {b : β}
    (first : Answers key lines x a) (second : Answers key lines (f a) b) :
    Answers key lines (x >>= f) b := by
  intro t coherent
  obtain ⟨value, middle, turned⟩ := first t coherent
  obtain ⟨result, after, last⟩ := second _ middle
  have run : (x >>= f).run t = (f a).run (x.run t).2 := by
    rw [← value]
    rfl
  rw [run]
  refine ⟨result, after, ?_⟩
  rcases last with same | key
  · rw [same]
    exact turned
  · exact .inr key

theorem Answers.map {x : StateM Tracker α} {a : α} (answers : Answers key lines x a)
    (f : α → β) : Answers key lines (x >>= fun a => pure (f a)) (f a) :=
  answers.bind (answers_pure (f a))

theorem answers_startsInside (key : SnapshotKey) (lines : List Line) (row : Nat) :
    Answers key lines (startsInside key lines.toArray row) (Comment.startsInside lines row) := by
  intro t coherent
  have marked : Marked lines (reach lines.toArray row (t.sync key).marks) :=
    coherent.sync.pass _
  refine ⟨?_, fun _ => marked, .inr rfl⟩
  exact marked.mark row (lt_size_reach _ row _)

theorem getD_toArray (lines : List Line) (row : Nat) :
    lines.toArray.getD row [] = lines.getD row [] := by
  rw [Array.getD_eq_getD_getElem?, List.getElem?_toArray, List.getD_eq_getElem?_getD]

theorem answers_spans (key : SnapshotKey) (lines : List Line) (row : Nat) :
    Answers key lines (spans key lines.toArray row)
      (Comment.spans (Comment.startsInside lines row) (lines.getD row [])) := by
  rw [spans, getD_toArray]
  exact (answers_startsInside key lines row).map _

theorem answers_isInside (key : SnapshotKey) (lines : List Line) (place : Place) :
    Answers key lines (isInside key lines.toArray place) (Comment.isInside lines place) := by
  rw [isInside, getD_toArray]
  exact (answers_startsInside key lines place.row).map _

theorem answers_visible (key : SnapshotKey) (lines : List Line) (row : Nat) :
    Answers key lines (visible key lines.toArray row) (Comment.visible lines row) := by
  rw [visible, getD_toArray]
  exact (answers_startsInside key lines row).map _

end Tracker

namespace Indent

open Tracker

variable {key : SnapshotKey} {lines : List Line}

theorem answers_textOf (key : SnapshotKey) (lines : List Line) (style : Style) (row : Nat) :
    Answers key lines (textOf style (.tracked key lines.toArray) lines.toArray row)
      (Id.run (textOf style (.pure lines) lines.toArray row)) := by
  cases style with
  | faithful => exact answers_pure _
  | commentAware => exact answers_visible key lines row

theorem answers_skips (key : SnapshotKey) (lines : List Line) (style : Style) (row : Nat) :
    Answers key lines (skips style (.tracked key lines.toArray) lines.toArray row)
      (Id.run (skips style (.pure lines) lines.toArray row)) := by
  cases style with
  | faithful => exact answers_isInside key lines _
  | commentAware => exact answers_pure _

theorem run_scanUp_succ (style : Style) (lines : List Line) (unit : Int) (anchor : Nat) :
    Id.run (scanUp style (.pure lines) lines.toArray unit (anchor + 1)) =
      if Id.run (skips style (.pure lines) lines.toArray anchor) then
        Id.run (scanUp style (.pure lines) lines.toArray unit anchor)
      else match scanRule? (Id.run (textOf style (.pure lines) lines.toArray anchor)) with
        | some rule => rule.decide lines.toArray unit anchor
        | none => Id.run (scanUp style (.pure lines) lines.toArray unit anchor) := rfl

theorem decideRow_succ (style : Style) (lines : List Line) (unit : Int) (above : Nat) :
    decideRow style lines unit (above + 1) =
      match leadingRule? (Id.run (textOf style (.pure lines) lines.toArray (above + 1))) with
      | some rule => rule.decide lines.toArray unit above
      | none => Id.run (scanUp style (.pure lines) lines.toArray unit (above + 1)) := rfl

theorem answers_scanUp (key : SnapshotKey) (lines : List Line) (style : Style) (unit : Int)
    (row : Nat) :
    Answers key lines (scanUp style (.tracked key lines.toArray) lines.toArray unit row)
      (Id.run (scanUp style (.pure lines) lines.toArray unit row)) := by
  induction row with
  | zero => exact answers_pure _
  | succ anchor ih =>
      rw [scanUp, run_scanUp_succ]
      apply (answers_skips key lines style anchor).bind
      cases Id.run (skips style (.pure lines) lines.toArray anchor) with
      | true => exact ih
      | false =>
          apply (answers_textOf key lines style anchor).bind
          cases scanRule? (Id.run (textOf style (.pure lines) lines.toArray anchor)) with
          | none => exact ih
          | some rule => exact answers_pure _

/-- A decision by a tracker is the decision with every comment found afresh. -/
theorem answers_decideWith (key : SnapshotKey) (lines : List Line) (style : Style) (unit : Int)
    (row : Nat) :
    Answers key lines (decideWith style (.tracked key lines.toArray) lines.toArray unit row)
      (decideRow style lines unit row) := by
  cases row with
  | zero => exact answers_pure _
  | succ above =>
      rw [decideWith, decideRow_succ]
      apply (answers_textOf key lines style (above + 1)).bind
      cases leadingRule? (Id.run (textOf style (.pure lines) lines.toArray (above + 1))) with
      | none => exact answers_scanUp key lines style unit (above + 1)
      | some rule => exact answers_pure _

end Indent

end LinkerScriptEditor
