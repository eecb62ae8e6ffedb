import LinkerScriptEditor.Pattern

/-!
# Runs in a line

From a point of a line a pattern reaches points of the same line, further on or where it began, and
what its groups capture lies in between.
-/

namespace LinkerScriptEditor

/-- The point in front of a column of a line. -/
def Point.ofColumn (l : Line) (column : Nat) : Point where
  before := match column with
    | 0 => none
    | last + 1 => l[last]?
  rest := l.drop column
  column := column

variable {line : Line} {first : Nat}

theorem lt_length_of_drop {column : Nat} {c : Char} {rest : List Char}
    (there : line.drop column = c :: rest) : column < line.length := by
  refine Nat.lt_of_not_le fun past => ?_
  rw [List.drop_eq_nil_iff.mpr past] at there
  cases there

theorem Point.ofColumn_succ {column : Nat} (lt : column < line.length) :
    ofColumn line (column + 1) =
      ⟨some (line.get ⟨column, lt⟩), line.drop (column + 1), column + 1⟩ := by
  rw [ofColumn, List.getElem?_eq_getElem lt]
  rfl

theorem Point.next?_ofColumn (line : Line) (column : Nat) :
    (ofColumn line column).next? =
      if column < line.length then some (ofColumn line (column + 1)) else none := by
  rw [next?]
  split
  · next past => rw [if_neg (Nat.not_lt.mpr (List.drop_eq_nil_iff.mp past))]
  · next c rest there =>
      have lt := lt_length_of_drop there
      obtain ⟨rfl, rfl⟩ := List.cons_eq_cons.mp ((List.drop_eq_getElem_cons lt).symm.trans there)
      rw [if_pos lt, ofColumn_succ lt]
      rfl

/-- A point of a line at or behind a first column, with captures between the two. -/
structure Reached.Along (line : Line) (first : Nat) (r : Reached) : Prop where
  place : r.point = .ofColumn line r.point.column
  first_le : first ≤ r.point.column
  le_length : r.point.column ≤ line.length
  groups : ∀ group ∈ r.groups, first ≤ group.2.start ∧ group.2.start ≤ group.2.stop ∧
    group.2.stop ≤ r.point.column

/-- A point of the same line that is not further back. -/
structure Reached.Leads (line : Line) (first : Nat) (r next : Reached) : Prop where
  along : next.Along line first
  le : r.point.column ≤ next.point.column

variable {r middle next : Reached}

theorem Reached.along_ofColumn (le : first ≤ line.length) :
    Reached.Along line first ⟨.ofColumn line first, []⟩ :=
  ⟨rfl, Nat.le_refl _, le, nofun⟩

theorem Reached.Along.refl (along : r.Along line first) : r.Leads line first r :=
  ⟨along, Nat.le_refl _⟩

theorem Reached.Leads.trans (one : r.Leads line first middle) (two : middle.Leads line first next) :
    r.Leads line first next :=
  ⟨two.along, Nat.le_trans one.le two.le⟩

theorem Reached.Along.step (along : r.Along line first) {c : Char} {rest : List Char}
    (there : r.point.rest = c :: rest) :
    r.Leads line first { r with point := ⟨some c, rest, r.point.column + 1⟩ } := by
  have lt : r.point.column < line.length :=
    lt_length_of_drop ((congrArg Point.rest along.place).symm.trans there)
  have next := Point.next?_ofColumn line r.point.column
  rw [← along.place, Point.next?, there, if_pos lt] at next
  refine ⟨⟨Option.some.inj next, Nat.le_succ_of_le along.first_le, lt, ?_⟩, Nat.le_succ _⟩
  intro group mem
  obtain ⟨after, forward, inside⟩ := along.groups group mem
  exact ⟨after, forward, Nat.le_succ_of_le inside⟩

namespace Pattern

/-- What a round keeps, all rounds keep. -/
theorem forall_mem_repeatRuns {holds : Reached → Prop} {step : Reached → List Reached}
    (keeps : ∀ r, holds r → ∀ next ∈ step r, holds next) (left : List Char) {r : Reached}
    {others : List Reached} (start : holds r) (rest : ∀ other ∈ others, holds other) :
    ∀ next ∈ repeatRuns step left r others, holds next := by
  induction left generalizing r others with
  | nil => exact List.forall_mem_cons.mpr ⟨start, rest⟩
  | cons c left ih =>
      rw [repeatRuns]
      have rounds : ∀ nexts : List Reached, (∀ next ∈ nexts, holds next) →
          ∀ next ∈ nexts.foldr (repeatRuns step left) (r :: others), holds next := by
        intro nexts
        induction nexts with
        | nil => exact fun _ => List.forall_mem_cons.mpr ⟨start, rest⟩
        | cons one more again =>
            intro all
            obtain ⟨own, later⟩ := List.forall_mem_cons.mp all
            exact ih own (again later)
      refine rounds _ fun next mem => ?_
      exact keeps r start next (List.mem_filter.mp mem).1

/-- A run stays in the line and goes forward. -/
theorem runs_leads (p : Pattern) (along : r.Along line first) :
    ∀ next ∈ p.runs r, r.Leads line first next := by
  induction p generalizing r with
  | empty =>
      intro next mem
      cases List.mem_singleton.mp mem
      exact along.refl
  | one accepts =>
      intro next mem
      rw [runs] at mem
      split at mem
      · next c rest there =>
          split at mem
          · cases List.mem_singleton.mp mem
            exact along.step there
          · cases mem
      · cases mem
  | seq one two ihOne ihTwo =>
      intro next mem
      obtain ⟨middle, reached, last⟩ := List.mem_flatMap.mp mem
      have leads := ihOne along middle reached
      exact leads.trans (ihTwo leads.along next last)
  | alt one two ihOne ihTwo =>
      intro next mem
      rcases List.mem_append.mp mem with left | right
      · exact ihOne along next left
      · exact ihTwo along next right
  | star body ih =>
      refine forall_mem_repeatRuns (fun middle leads next mem => ?_) _ along.refl nofun
      exact leads.trans (ih leads.along next mem)
  | group number body ih =>
      intro next mem
      obtain ⟨inner, reached, rfl⟩ := List.mem_map.mp mem
      obtain ⟨inside, le⟩ := ih along inner reached
      refine ⟨⟨inside.place, inside.first_le, inside.le_length, ?_⟩, le⟩
      exact List.forall_mem_cons.mpr
        ⟨⟨along.first_le, le, Nat.le_refl _⟩, inside.groups⟩
  | boundary inWord =>
      intro next mem
      rw [runs] at mem
      split at mem
      · cases mem
      · cases List.mem_singleton.mp mem
        exact along.refl
  | notAfter rejects =>
      intro next mem
      rw [runs] at mem
      split at mem
      · cases mem
      · cases List.mem_singleton.mp mem
        exact along.refl

end Pattern

end LinkerScriptEditor
