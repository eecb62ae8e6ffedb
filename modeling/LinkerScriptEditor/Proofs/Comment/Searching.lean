import LinkerScriptEditor.Proofs.Comment.Clear

/-!
# Comments by their marks

A scan goes through a line character by character. The comments that it finds can be told without
it, by looking for marks: outside of comments the next opening mark is looked for, inside of one the
next closing mark behind the opening one, and a search that finds nothing is the last. So each
comment of a line begins and ends at the first mark that can begin or end it.
-/

namespace LinkerScriptEditor

/-- A mark stands at a column of a line and at none in front of it, from an origin on. -/
structure Line.First (mark : List Char) (line : Line) (origin column : Nat) : Prop where
  le : origin ≤ column
  stands : mark <+: line.drop column
  least : ∀ c, origin ≤ c → c < column → ¬mark <+: line.drop c

/-- No mark stands at a column from an origin on. -/
def Line.Free (mark : List Char) (line : Line) (origin : Nat) : Prop :=
  ∀ column, origin ≤ column → ¬mark <+: line.drop column

namespace Line

variable {mark : List Char} {line : Line} {origin column other : Nat}

theorem First.unique (first : First mark line origin column)
    (second : First mark line origin other) : column = other := by
  rcases Nat.lt_trichotomy column other with lt | same | lt
  · exact absurd first.stands (second.least column first.le lt)
  · exact same
  · exact absurd second.stands (first.least other second.le lt)

theorem First.not_free (first : First mark line origin column) : ¬Free mark line origin :=
  fun free => free column first.le first.stands

theorem First.add_length_le (first : First mark line origin column) (some : mark ≠ []) :
    column + mark.length ≤ line.length := by
  have fits := first.stands.length_le
  have pos := List.length_pos_iff.mpr some
  rw [List.length_drop] at fits
  omega

theorem first_self (stands : mark <+: line.drop column) : First mark line column column :=
  ⟨Nat.le_refl column, stands, fun _ after before => absurd before (Nat.not_lt.mpr after)⟩

/-- A search may begin sooner where no mark stands. -/
theorem First.back (first : First mark line (origin + 1) column)
    (absent : ¬mark <+: line.drop origin) : First mark line origin column := by
  refine ⟨Nat.le_of_succ_le first.le, first.stands, fun c after before => ?_⟩
  rcases Nat.eq_or_lt_of_le after with rfl | later
  · exact absent
  · exact first.least c later before

theorem Free.back (free : Free mark line (origin + 1)) (absent : ¬mark <+: line.drop origin) :
    Free mark line origin := by
  intro column after
  rcases Nat.eq_or_lt_of_le after with rfl | later
  · exact absent
  · exact free column later

theorem free_of_length_le (past : line.length ≤ origin) (some : mark ≠ []) :
    Free mark line origin := by
  intro column after stands
  rw [List.drop_of_length_le (Nat.le_trans past after)] at stands
  exact some (List.prefix_nil.mp stands)

end Line

namespace Comment

def openingMark : List Char := opening.toList
def closingMark : List Char := closing.toList

/-- The comments that are found by searches from a column on, and whether the last of them goes on.
Inside a comment, `opened` is the column at which it began. -/
inductive Searched (line : Line) : Nat → Option Nat → List Span → Bool → Prop
  | closed {column start close : Nat} {spans : List Span} {inside : Bool}
      (found : line.First closingMark column close)
      (rest : Searched line (close + 2) none spans inside) :
      Searched line column (some start) (⟨start, close + 2⟩ :: spans) inside
  | unclosed {column start : Nat} (free : line.Free closingMark column) :
      Searched line column (some start) [⟨start, line.length⟩] true
  | opened {column start : Nat} {spans : List Span} {inside : Bool}
      (found : line.First openingMark column start)
      (rest : Searched line (start + 2) (some start) spans inside) :
      Searched line column none spans inside
  | bare {column : Nat} (free : line.Free openingMark column) : Searched line column none [] false

namespace Searched

variable {line : Line} {column start : Nat} {opened : Option Nat} {spans others : List Span}
  {inside other : Bool}

theorem back_inside (searched : Searched line (column + 1) (some start) spans inside)
    (absent : ¬closingMark <+: line.drop column) :
    Searched line column (some start) spans inside := by
  cases searched with
  | closed found rest => exact .closed (found.back absent) rest
  | unclosed free => exact .unclosed (free.back absent)

theorem back_outside (searched : Searched line (column + 1) none spans inside)
    (absent : ¬openingMark <+: line.drop column) : Searched line column none spans inside := by
  cases searched with
  | opened found rest => exact .opened (found.back absent) rest
  | bare free => exact .bare (free.back absent)

/-- What comes of the searches is settled by where they begin. -/
theorem unique (one : Searched line column opened spans inside)
    (two : Searched line column opened others other) : spans = others ∧ inside = other := by
  induction one generalizing others other with
  | closed found rest ih =>
      cases two with
      | closed again more =>
          obtain rfl := found.unique again
          obtain ⟨rfl, rfl⟩ := ih more
          exact ⟨rfl, rfl⟩
      | unclosed free => exact absurd free found.not_free
  | unclosed free =>
      cases two with
      | closed again more => exact absurd free again.not_free
      | unclosed _ => exact ⟨rfl, rfl⟩
  | opened found rest ih =>
      cases two with
      | opened again more =>
          obtain rfl := found.unique again
          exact ih more
      | bare free => exact absurd free found.not_free
  | bare free =>
      cases two with
      | opened again more => exact absurd free again.not_free
      | bare _ => exact ⟨rfl, rfl⟩

end Searched

theorem drop_add_of_drop (front : List Char) {line rest : List Char} {column : Nat}
    (left : line.drop column = front ++ rest) : line.drop (column + front.length) = rest := by
  rw [← List.drop_drop, left, List.drop_left]

theorem lt_length_of_drop_ne_nil {line : Line} {column : Nat} (some : line.drop column ≠ []) :
    column < line.length :=
  Nat.lt_of_not_le fun past => some (List.drop_eq_nil_iff.mpr past)

/-- A scan finds what is found by searches. -/
theorem searched_scan {line : Line} (column : Nat) (opened : Option Nat) (rest : List Char)
    (left : line.drop column = rest) (bound : column ≤ line.length) :
    Searched line column opened (scan column opened rest).1 (scan column opened rest).2 := by
  fun_induction scan column opened rest with
  | case1 column start rest spans inside run ih =>
      have stands : closingMark <+: line.drop column := left ▸ ⟨rest, rfl⟩
      have found := Line.first_self stands
      have more := ih (drop_add_of_drop ['*', '/'] left)
        (found.add_length_le (List.cons_ne_nil _ _))
      rw [run] at more
      exact .closed found more
  | case2 column start c rest other ih =>
      have absent : ¬closingMark <+: line.drop column := by
        rintro ⟨tail, split⟩
        rw [left] at split
        cases split
        exact other tail rfl rfl
      have fits := lt_length_of_drop_ne_nil (left ▸ List.cons_ne_nil c rest)
      exact (ih (drop_add_of_drop [c] left) fits).back_inside absent
  | case3 column start =>
      have past : line.length ≤ column := List.drop_eq_nil_iff.mp left
      obtain rfl := Nat.le_antisymm bound past
      exact .unclosed (Line.free_of_length_le past (List.cons_ne_nil _ _))
  | case4 column rest ih =>
      have stands : openingMark <+: line.drop column := left ▸ ⟨rest, rfl⟩
      have found := Line.first_self stands
      exact .opened found (ih (drop_add_of_drop ['/', '*'] left)
        (found.add_length_le (List.cons_ne_nil _ _)))
  | case5 column c rest other ih =>
      have absent : ¬openingMark <+: line.drop column := by
        rintro ⟨tail, split⟩
        rw [left] at split
        cases split
        exact other tail rfl rfl
      have fits := lt_length_of_drop_ne_nil (left ▸ List.cons_ne_nil c rest)
      exact (ih (drop_add_of_drop [c] left) fits).back_outside absent
  | case6 column =>
      exact .bare (Line.free_of_length_le (List.drop_eq_nil_iff.mp left) (List.cons_ne_nil _ _))

/-- The state in which a scan begins. -/
def entry (inside : Bool) : Option Nat := if inside then some 0 else none

/-- The searches come to an end, and with what the scan finds. -/
theorem searched_iff {inside goesOn : Bool} {line : Line} {spans : List Span} :
    Searched line 0 (entry inside) spans goesOn ↔ scanLine inside line = (spans, goesOn) := by
  have found : Searched line 0 (entry inside) (scanLine inside line).1 (scanLine inside line).2 :=
    searched_scan 0 (entry inside) line rfl (Nat.zero_le _)
  constructor
  · intro searched
    obtain ⟨same, state⟩ := found.unique searched
    exact Prod.ext same state
  · intro run
    rw [run] at found
    exact found

/-- How a comment ends that can be closed from a column on: behind the first closing mark, and the
others are looked for from there on; or with the line, and then it is the last. -/
def Ends (line : Line) (origin : Nat) (s : Span) (after : List Span) (goesOn : Bool) : Prop :=
  (∃ close, line.First closingMark origin close ∧ s.stop = close + 2 ∧
      Searched line s.stop none after goesOn) ∨
    line.Free closingMark origin ∧ s.stop = line.length ∧ after = [] ∧ goesOn = true

/-- The end of the last of some comments, from where the next one is looked for. -/
def resume (before : List Span) : Nat := (before.getLast?.map Span.stop).getD 0

/-- The column from which a comment can be closed: the end of its opening mark, or the beginning of
the line for one that was open there. -/
def closable (inside : Bool) (before : List Span) (s : Span) : Nat :=
  if inside = true ∧ before = [] then 0 else s.start + 2

namespace Searched

variable {line : Line} {column start : Nat} {opened : Option Nat} {before after spans : List Span}
  {s : Span} {goesOn : Bool}

theorem exists_ends (searched : Searched line column (some start) spans goesOn) :
    ∃ s after, spans = s :: after ∧ s.start = start ∧ Ends line column s after goesOn := by
  cases searched with
  | closed found rest => exact ⟨_, _, rfl, rfl, .inl ⟨_, found, rfl, rest⟩⟩
  | unclosed free => exact ⟨_, _, rfl, rfl, .inr ⟨free, rfl, rfl, rfl⟩⟩

theorem first_and_ends (searched : Searched line column none (s :: after) goesOn) :
    line.First openingMark column s.start ∧ Ends line (s.start + 2) s after goesOn := by
  cases searched with
  | opened found rest =>
      obtain ⟨t, others, same, rfl, ends⟩ := rest.exists_ends
      obtain ⟨rfl, rfl⟩ := List.cons.inj same
      exact ⟨found, ends⟩

theorem free_of_nil (searched : Searched line column none [] goesOn) :
    line.Free openingMark column ∧ goesOn = false := by
  cases searched with
  | opened found rest =>
      obtain ⟨_, _, same, -⟩ := rest.exists_ends
      cases same
  | bare free => exact ⟨free, rfl⟩

/-- The comments behind the first one are looked for from its end on. -/
theorem tail (searched : Searched line column opened (s :: after) goesOn)
    (more : after = [] → goesOn = false) : Searched line s.stop none after goesOn := by
  have ends : ∃ origin, Ends line origin s after goesOn := by
    cases opened with
    | none => exact ⟨_, searched.first_and_ends.2⟩
    | some start =>
        obtain ⟨_, _, same, -, ends⟩ := searched.exists_ends
        obtain ⟨rfl, rfl⟩ := List.cons.inj same
        exact ⟨_, ends⟩
  obtain ⟨origin, ⟨close, -, -, rest⟩ | ⟨-, -, last, goes⟩⟩ := ends
  · exact rest
  · cases goes.symm.trans (more last)

theorem resume (searched : Searched line column opened (before ++ after) goesOn)
    (some : before ≠ []) (more : after = [] → goesOn = false) :
    Searched line (Comment.resume before) none after goesOn := by
  induction before generalizing column opened with
  | nil => exact absurd rfl some
  | cons s rest ih =>
      have behind : Searched line s.stop none (rest ++ after) goesOn := by
        apply searched.tail
        intro none
        exact more (List.append_eq_nil_iff.mp none).2
      cases rest with
      | nil => exact behind
      | cons t others =>
          have last := ih behind (List.cons_ne_nil t others)
          rwa [Comment.resume, List.getLast?_cons_cons]

/-- Every comment begins and ends at the marks that are to be found for it. -/
theorem begins_and_ends {inside : Bool}
    (searched : Searched line 0 (entry inside) (before ++ s :: after) goesOn) :
    (if inside = true ∧ before = [] then s.start = 0
      else line.First openingMark (Comment.resume before) s.start) ∧
    Ends line (closable inside before s) s after goesOn := by
  rw [closable]
  split
  · next carried =>
      obtain ⟨rfl, rfl⟩ := carried
      obtain ⟨_, _, same, start, ends⟩ := searched.exists_ends
      obtain ⟨rfl, rfl⟩ := List.cons.inj same
      exact ⟨start, ends⟩
  · next fresh =>
      apply first_and_ends
      by_cases first : before = []
      · subst first
        obtain rfl : inside = false := by simpa using fresh
        exact searched
      · exact searched.resume first (fun none => absurd none (List.cons_ne_nil s after))

/-- The comments are in order and inside the line. -/
theorem bounds (searched : Searched line column opened spans goesOn)
    (within : column ≤ line.length) (begun : ∀ start ∈ opened, start ≤ column) :
    (∀ s ∈ spans, opened.getD column ≤ s.start ∧ s.start ≤ s.stop ∧ s.stop ≤ line.length) ∧
      spans.Pairwise fun a b => a.stop ≤ b.start := by
  induction searched with
  | @closed column start close spans inside found rest ih =>
      have fits : close + 2 ≤ line.length := found.add_length_le (List.cons_ne_nil _ _)
      obtain ⟨each, ordered⟩ := ih fits nofun
      have past : start ≤ close := Nat.le_trans (begun start rfl) found.le
      constructor
      · intro s mem
        rcases List.mem_cons.mp mem with rfl | later
        · exact ⟨Nat.le_refl _, Nat.le_add_right_of_le past, fits⟩
        · obtain ⟨front, both⟩ := each s later
          exact ⟨Nat.le_trans (Nat.le_add_right_of_le past) front, both⟩
      · exact List.pairwise_cons.mpr ⟨fun s later => (each s later).1, ordered⟩
  | @unclosed column start free =>
      refine ⟨fun s mem => ?_, List.pairwise_singleton _ _⟩
      obtain rfl := List.mem_singleton.mp mem
      exact ⟨Nat.le_refl _, Nat.le_trans (begun start rfl) within, Nat.le_refl _⟩
  | @opened column start spans inside found rest ih =>
      have fits : start + 2 ≤ line.length := found.add_length_le (List.cons_ne_nil _ _)
      obtain ⟨each, ordered⟩ := ih fits (by simp)
      refine ⟨fun s mem => ?_, ordered⟩
      obtain ⟨front, both⟩ := each s mem
      exact ⟨Nat.le_trans found.le front, both⟩
  | bare free => exact ⟨nofun, .nil⟩

end Searched

/-- The comments of a line as its marks tell them, by the state in which the line starts: a mark is
two characters long, and what is looked for is the first mark that can begin or end the comment. -/
structure Delimited (inside : Bool) (line : Line) (spans : List Span) (goesOn : Bool) : Prop where
  inOrder : spans.Pairwise fun a b => a.stop ≤ b.start
  within : ∀ s ∈ spans, s.start ≤ s.stop ∧ s.stop ≤ line.length
  carried : inside = true → spans ≠ []
  begins : ∀ before s after, spans = before ++ s :: after →
    if inside = true ∧ before = [] then s.start = 0
    else line.First openingMark (resume before) s.start
  stops : ∀ before s after, spans = before ++ s :: after →
    (∃ close, line.First closingMark (closable inside before s) close ∧ s.stop = close + 2) ∨
      line.Free closingMark (closable inside before s) ∧ s.stop = line.length ∧ after = [] ∧
        goesOn = true
  goesOn_iff : goesOn = true ↔
    ∃ before s, spans = before ++ [s] ∧ line.Free closingMark (closable inside before s)
  complete : goesOn = false → line.Free openingMark (resume spans)

theorem Searched.goesOn_iff {inside goesOn : Bool} {line : Line} {spans : List Span}
    (searched : Searched line 0 (entry inside) spans goesOn) :
    goesOn = true ↔
      ∃ before s, spans = before ++ [s] ∧ line.Free closingMark (closable inside before s) := by
  constructor
  · rintro rfl
    rcases List.eq_nil_or_concat spans with rfl | ⟨before, s, rfl⟩
    · cases inside with
      | false => cases searched.free_of_nil.2
      | true =>
          obtain ⟨_, _, none, -⟩ := searched.exists_ends
          cases none
    · rw [List.concat_eq_append] at searched ⊢
      obtain ⟨close, found, -, rest⟩ | ⟨free, -⟩ := searched.begins_and_ends.2
      · cases rest.free_of_nil.2
      · exact ⟨before, s, rfl, free⟩
  · rintro ⟨before, s, rfl, free⟩
    obtain ⟨close, found, -⟩ | ⟨-, -, -, goes⟩ := searched.begins_and_ends.2
    · exact absurd free found.not_free
    · exact goes

theorem Searched.delimited {inside goesOn : Bool} {line : Line} {spans : List Span}
    (searched : Searched line 0 (entry inside) spans goesOn) :
    Delimited inside line spans goesOn := by
  obtain ⟨each, ordered⟩ := searched.bounds (Nat.zero_le _) (by cases inside <;> simp [entry])
  refine ⟨ordered, fun s mem => (each s mem).2, ?_, ?_, ?_, searched.goesOn_iff, ?_⟩
  · rintro rfl
    obtain ⟨s, after, rfl, -⟩ := searched.exists_ends
    exact List.cons_ne_nil s after
  · rintro before s after rfl
    exact searched.begins_and_ends.1
  · rintro before s after rfl
    obtain ⟨close, found, stop, -⟩ | last := searched.begins_and_ends.2
    · exact .inl ⟨close, found, stop⟩
    · exact .inr last
  · rintro rfl
    by_cases none : spans = []
    · subst none
      cases inside with
      | false => exact searched.free_of_nil.1
      | true =>
          obtain ⟨_, _, none, -⟩ := searched.exists_ends
          cases none
    · rw [← List.append_nil spans] at searched
      exact (searched.resume none fun _ => rfl).free_of_nil.1

end Comment

end LinkerScriptEditor
