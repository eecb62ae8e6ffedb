import LinkerScriptEditor.Proofs.Pattern.Runs

/-!
# Pieces that patterns read

A pattern that captures nothing is known by the pieces of lines that it reads: where they begin and
where they end. The pieces of a composed pattern are told from those of its parts.
-/

namespace LinkerScriptEditor

/-- Whether a column of a line holds a character of a class. -/
def Line.has (accepts : Char → Bool) (l : Line) (column : Nat) : Bool := l[column]?.any accepts

/-- Whether the column in front of a column holds a character of a class. -/
def Line.hasBefore (accepts : Char → Bool) (line : Line) : Nat → Bool
  | 0 => false
  | last + 1 => line.has accepts last

theorem Line.lt_length_of_has {accepts : Char → Bool} {line : Line} {column : Nat}
    (has : Line.has accepts line column = true) : column < line.length := by
  refine Nat.lt_of_not_le fun past => ?_
  rw [Line.has, List.getElem?_eq_none past] at has
  cases has

theorem Line.has_iff {accepts : Char → Bool} {l : Line} {column : Nat} :
    Line.has accepts l column = true ↔ ∃ c, l[column]? = some c ∧ accepts c = true :=
  Option.any_eq_true _ _

/-- All columns from one up to another hold characters of a class. -/
structure Line.Stretch (accepts : Char → Bool) (line : Line) (first last : Nat) : Prop where
  le : first ≤ last
  has : ∀ column, first ≤ column → column < last → Line.has accepts line column = true

theorem Line.stretch_iff {accepts : Char → Bool} {line : Line} {first last : Nat} :
    Line.Stretch accepts line first last ↔ last = first ∨
      Line.has accepts line first = true ∧ Line.Stretch accepts line (first + 1) last := by
  constructor
  · intro stretch
    rcases Nat.lt_or_eq_of_le stretch.le with lt | same
    · exact .inr ⟨stretch.has first (Nat.le_refl _) lt, lt,
        fun column after => stretch.has column (Nat.le_of_succ_le after)⟩
    · exact .inl same.symm
  · rintro (rfl | ⟨has, stretch⟩)
    · exact ⟨Nat.le_refl _, fun column after before => absurd before (Nat.not_lt.mpr after)⟩
    · refine ⟨Nat.le_of_succ_le stretch.le, fun column after before => ?_⟩
      rcases Nat.lt_or_eq_of_le after with later | rfl
      · exact stretch.has column later before
      · exact has

namespace Pattern

/-- The pieces that a pattern reads, given by the columns in front of which they begin and end. The
pattern captures nothing. -/
def Reads (p : Pattern) (reads : Line → Nat → Nat → Prop) : Prop :=
  ∀ (line : Line) (first : Nat) (groups : List (Nat × Span)) (next : Reached),
    first ≤ line.length → (next ∈ p.runs ⟨.ofColumn line first, groups⟩ ↔
      ∃ last, last ≤ line.length ∧ reads line first last ∧ next = ⟨.ofColumn line last, groups⟩)

variable {p q : Pattern} {own other : Line → Nat → Nat → Prop} {accepts : Char → Bool}

theorem Reads.congr (reads : p.Reads own)
    (same : ∀ line first last, own line first last ↔ other line first last) : p.Reads other := by
  intro line first groups next le
  rw [reads line first groups next le]
  simp only [same]

theorem reads_empty : empty.Reads fun _ first last => last = first := by
  intro line first groups next le
  rw [runs, List.mem_singleton]
  constructor
  · rintro rfl
    exact ⟨first, le, rfl, rfl⟩
  · rintro ⟨_, -, rfl, rfl⟩
    rfl

theorem runs_one (accepts : Char → Bool) (line : Line) (first : Nat) (groups : List (Nat × Span)) :
    (one accepts).runs ⟨.ofColumn line first, groups⟩ =
      if Line.has accepts line first then [⟨.ofColumn line (first + 1), groups⟩] else [] := by
  have rest : (Point.ofColumn line first).rest = line.drop first := rfl
  rw [runs]
  by_cases lt : first < line.length
  · have opening := rest.trans (List.drop_eq_getElem_cons lt)
    dsimp only
    rw [opening, Line.has, Point.ofColumn_succ lt, List.getElem?_eq_getElem lt]
    rfl
  · rw [Nat.not_lt] at lt
    have none := rest.trans (List.drop_eq_nil_iff.mpr lt)
    dsimp only
    rw [none, Line.has, List.getElem?_eq_none lt, Option.any_none, if_neg Bool.false_ne_true]

theorem reads_one (accepts : Char → Bool) :
    (one accepts).Reads fun line first last =>
      Line.has accepts line first = true ∧ last = first + 1 := by
  intro line first groups next le
  rw [runs_one]
  split
  · next has =>
      rw [List.mem_singleton]
      constructor
      · rintro rfl
        exact ⟨first + 1, Line.lt_length_of_has has, ⟨has, rfl⟩, rfl⟩
      · rintro ⟨_, -, ⟨-, rfl⟩, rfl⟩
        rfl
  · next lacks =>
      refine iff_of_false List.not_mem_nil ?_
      rintro ⟨_, -, ⟨has, -⟩, -⟩
      exact lacks has

theorem Reads.seq (one : p.Reads own) (two : q.Reads other) :
    (p.seq q).Reads fun line first last =>
      ∃ middle, middle ≤ line.length ∧ own line first middle ∧ other line middle last := by
  intro line first groups next le
  rw [runs, List.mem_flatMap]
  constructor
  · rintro ⟨middle, reached, mem⟩
    obtain ⟨column, inside, before, rfl⟩ := (one line first groups middle le).mp reached
    obtain ⟨last, end_le, after, rfl⟩ := (two line column groups next inside).mp mem
    exact ⟨last, end_le, ⟨column, inside, before, after⟩, rfl⟩
  · rintro ⟨last, end_le, ⟨column, inside, before, after⟩, rfl⟩
    exact ⟨_, (one line first groups _ le).mpr ⟨column, inside, before, rfl⟩,
      (two line column groups _ inside).mpr ⟨last, end_le, after, rfl⟩⟩

theorem Reads.alt (one : p.Reads own) (two : q.Reads other) :
    (p.alt q).Reads fun line first last => own line first last ∨ other line first last := by
  intro line first groups next le
  rw [runs, List.mem_append, one line first groups next le, two line first groups next le]
  constructor
  · rintro (⟨last, inside, reads, rfl⟩ | ⟨last, inside, reads, rfl⟩)
    · exact ⟨last, inside, .inl reads, rfl⟩
    · exact ⟨last, inside, .inr reads, rfl⟩
  · rintro ⟨last, inside, reads | reads, rfl⟩
    · exact .inl ⟨last, inside, reads, rfl⟩
    · exact .inr ⟨last, inside, reads, rfl⟩

theorem before_ofColumn (accepts : Char → Bool) (line : Line) (column : Nat) :
    (Point.ofColumn line column).before.any accepts = Line.hasBefore accepts line column := by
  cases column <;> rfl

theorem head?_ofColumn (accepts : Char → Bool) (line : Line) (column : Nat) :
    (Point.ofColumn line column).rest.head?.any accepts = Line.has accepts line column := by
  change (line.drop column).head?.any accepts = _
  rw [List.head?_drop, Line.has]

/-- A group captures what its body reads. -/
theorem Reads.mem_runs_group (reads : p.Reads own) (number : Nat) {line : Line} {first : Nat}
    {groups : List (Nat × Span)} {next : Reached} (le : first ≤ line.length) :
    next ∈ (group number p).runs ⟨.ofColumn line first, groups⟩ ↔
      ∃ last, last ≤ line.length ∧ own line first last ∧
        next = ⟨.ofColumn line last, (number, ⟨first, last⟩) :: groups⟩ := by
  rw [runs, List.mem_map]
  constructor
  · rintro ⟨inner, mem, rfl⟩
    obtain ⟨last, inside, read, rfl⟩ := (reads line first groups inner le).mp mem
    exact ⟨last, inside, read, rfl⟩
  · rintro ⟨last, inside, read, rfl⟩
    exact ⟨_, (reads line first groups _ le).mpr ⟨last, inside, read, rfl⟩, rfl⟩

theorem reads_boundary (inWord : Char → Bool) :
    (boundary inWord).Reads fun line first last =>
      Line.hasBefore inWord line first ≠ Line.has inWord line first ∧ last = first := by
  intro line first groups next le
  rw [runs, before_ofColumn, head?_ofColumn]
  split
  · next same =>
      refine iff_of_false List.not_mem_nil ?_
      rintro ⟨_, -, ⟨differ, -⟩, -⟩
      exact differ (beq_iff_eq.mp same)
  · next differ =>
      rw [List.mem_singleton]
      constructor
      · rintro rfl
        exact ⟨first, le, ⟨fun same => differ (beq_iff_eq.mpr same), rfl⟩, rfl⟩
      · rintro ⟨_, -, ⟨-, rfl⟩, rfl⟩
        rfl

theorem cons_prefix_drop_iff {line : Line} {c : Char} {word : List Char} {first : Nat} :
    c :: word <+: line.drop first ↔
      Line.has (· == c) line first = true ∧ word <+: line.drop (first + 1) := by
  by_cases lt : first < line.length
  · rw [List.drop_eq_getElem_cons lt, List.cons_prefix_cons, Line.has,
      List.getElem?_eq_getElem lt, Option.any_some, beq_iff_eq, eq_comm]
  · rw [Nat.not_lt] at lt
    rw [List.drop_eq_nil_iff.mpr lt, Line.has, List.getElem?_eq_none lt]
    simp

/-- A word is read where it begins. -/
theorem reads_literal (word : List Char) :
    (literal word).Reads fun line first last =>
      word <+: line.drop first ∧ last = first + word.length := by
  induction word with
  | nil => exact reads_empty.congr fun _ _ _ => by simp
  | cons c word ih =>
      refine ((reads_one (· == c)).seq ih).congr fun line first last => ?_
      rw [cons_prefix_drop_iff, List.length_cons]
      constructor
      · rintro ⟨_, -, ⟨has, rfl⟩, start, rfl⟩
        exact ⟨⟨has, start⟩, by omega⟩
      · rintro ⟨⟨has, start⟩, rfl⟩
        exact ⟨first + 1, Line.lt_length_of_has has, ⟨has, rfl⟩, start, by omega⟩

/-- One of several patterns reads what any of them reads. -/
theorem reads_oneOf {α : Type} {f : α → Pattern} {own : α → Line → Nat → Nat → Prop}
    (words : List α) (reads : ∀ word ∈ words, (f word).Reads (own word)) :
    (oneOf (words.map f)).Reads fun line first last =>
      ∃ word ∈ words, own word line first last := by
  induction words with
  | nil => exact (reads_one fun _ => false).congr fun line first last => by simp [Line.has]
  | cons word rest ih =>
      obtain ⟨here, there⟩ := List.forall_mem_cons.mp reads
      cases rest with
      | nil => exact here.congr fun line first last => by simp
      | cons more others => exact (here.alt (ih there)).congr fun line first last => by simp

/-- Rounds of one character each end at every column that they can come to. -/
theorem mem_repeatRuns_one {line : Line} {groups : List (Nat × Span)} {next : Reached}
    (left : List Char) {first : Nat} {others : List Reached} (le : first ≤ line.length)
    (enough : line.length ≤ first + left.length) :
    next ∈ repeatRuns (one accepts).runs left ⟨.ofColumn line first, groups⟩ others ↔
      next ∈ others ∨ ∃ last, last ≤ line.length ∧ Line.Stretch accepts line first last ∧
        next = ⟨.ofColumn line last, groups⟩ := by
  -- without another round the only end is the beginning
  have stays : ∀ {first : Nat} {others : List Reached}, first ≤ line.length →
      ¬Line.has accepts line first = true →
        (next ∈ ⟨.ofColumn line first, groups⟩ :: others ↔ next ∈ others ∨ ∃ last,
          last ≤ line.length ∧ Line.Stretch accepts line first last ∧
            next = ⟨.ofColumn line last, groups⟩) := by
    intro first others le lacks
    rw [List.mem_cons, or_comm]
    refine or_congr_right ⟨?_, ?_⟩
    · rintro rfl
      exact ⟨first, le, Line.stretch_iff.mpr (.inl rfl), rfl⟩
    · rintro ⟨last, -, stretch, rfl⟩
      rcases Line.stretch_iff.mp stretch with rfl | ⟨has, -⟩
      · rfl
      · exact absurd has lacks
  induction left generalizing first others with
  | nil => exact stays le fun has => absurd (Line.lt_length_of_has has) (Nat.not_lt.mpr enough)
  | cons c left ih =>
      rw [repeatRuns, runs_one]
      split
      · next has =>
          have on : [(⟨.ofColumn line (first + 1), groups⟩ : Reached)].filter
              (fun next => (Point.ofColumn line first).column < next.point.column) =
                [⟨.ofColumn line (first + 1), groups⟩] := by simp [Point.ofColumn]
          have more : first + 1 ≤ line.length := Line.lt_length_of_has has
          have rounds : line.length ≤ first + 1 + left.length := by
            rw [List.length_cons] at enough
            omega
          have again := @ih (first + 1) (⟨.ofColumn line first, groups⟩ :: others) more rounds
          dsimp only
          rw [on, List.foldr_cons, List.foldr_nil]
          refine again.trans ?_
          rw [List.mem_cons, or_assoc, or_left_comm]
          refine or_congr_right ⟨?_, ?_⟩
          · rintro (rfl | ⟨last, inside, stretch, rfl⟩)
            · exact ⟨first, le, Line.stretch_iff.mpr (.inl rfl), rfl⟩
            · exact ⟨last, inside, Line.stretch_iff.mpr (.inr ⟨has, stretch⟩), rfl⟩
          · rintro ⟨last, inside, stretch, rfl⟩
            rcases Line.stretch_iff.mp stretch with rfl | ⟨-, later⟩
            · exact .inl rfl
            · exact .inr ⟨last, inside, later, rfl⟩
      · next lacks => exact stays le lacks

/-- As many characters of a class as there are, or fewer. -/
theorem reads_star_one (accepts : Char → Bool) :
    (star (one accepts)).Reads (Line.Stretch accepts) := by
  intro line first groups next le
  change next ∈ repeatRuns (one accepts).runs (line.drop first) _ [] ↔ _
  rw [mem_repeatRuns_one _ le (by rw [List.length_drop]; omega)]
  exact or_iff_right List.not_mem_nil

theorem reads_plus_one (accepts : Char → Bool) :
    (plus (one accepts)).Reads fun line first last =>
      first < last ∧ Line.Stretch accepts line first last := by
  refine ((reads_one accepts).seq (reads_star_one accepts)).congr fun line first last => ?_
  constructor
  · rintro ⟨_, -, ⟨has, rfl⟩, stretch⟩
    exact ⟨stretch.le, Line.stretch_iff.mpr (.inr ⟨has, stretch⟩)⟩
  · rintro ⟨lt, stretch⟩
    rcases Line.stretch_iff.mp stretch with rfl | ⟨has, rest⟩
    · exact absurd lt (Nat.lt_irrefl _)
    · exact ⟨first + 1, Line.lt_length_of_has has, ⟨has, rfl⟩, rest⟩

end Pattern

end LinkerScriptEditor
