import LinkerScriptEditor.Proofs.Pattern.Runs

/-!
# Searching a line

A search finds runs of its pattern in the line, in order and apart from each other, and what a match
captures lies inside the match. If all runs move on and none goes past the beginning of another, the
search finds the best run from every column.
-/

namespace LinkerScriptEditor

variable {p : Pattern} {line : Line}

/-- A match lies in a line, and its groups lie in the match. -/
structure Match.Inside (line : Line) (m : Match) : Prop where
  start_le_stop : m.region.start ≤ m.region.stop
  stop_le_length : m.region.stop ≤ line.length
  groups : ∀ number span, m.group? number = some span →
    m.region.start ≤ span.start ∧ span.start ≤ span.stop ∧ span.stop ≤ m.region.stop

namespace Pattern

/-- The match that a run from a column makes. -/
def matchOf (column : Nat) (r : Reached) : Match := ⟨⟨column, r.point.column⟩, r.groups⟩

theorem inside_matchOf {column : Nat} {r : Reached} (le : column ≤ line.length)
    (mem : r ∈ p.runs ⟨.ofColumn line column, []⟩) : (matchOf column r).Inside line := by
  have along := (runs_leads p (Reached.along_ofColumn le) r mem).along
  refine ⟨along.first_le, along.le_length, ?_⟩
  intro number span found
  rw [Match.group?] at found
  split at found
  · cases found
    exact ⟨Nat.le_refl _, along.first_le, Nat.le_refl _⟩
  · obtain ⟨before, after, split, -⟩ := List.lookup_eq_some_iff.mp found
    exact along.groups (number, span) (by simp [show r.groups = _ from split])

section Search

variable {fuel first : Nat} {advance : Bool}

theorem mem_runs_of_matchAt? {r : Reached}
    (found : p.matchAt? advance (.ofColumn line first) = some r) :
    r ∈ p.runs ⟨.ofColumn line first, []⟩ := List.mem_of_find?_eq_some found

/-- What a search finds are runs from columns of the line. -/
theorem exists_run_of_mem_findFrom (le : first ≤ line.length) {m : Match}
    (mem : m ∈ p.findFrom fuel advance (.ofColumn line first)) :
    ∃ column r, first ≤ column ∧ column ≤ line.length ∧
      r ∈ p.runs ⟨.ofColumn line column, []⟩ ∧ m = matchOf column r := by
  induction fuel generalizing first advance with
  | zero => cases mem
  | succ fuel ih =>
      rw [findFrom] at mem
      split at mem
      · next r found =>
          have run := mem_runs_of_matchAt? found
          have leads := runs_leads p (Reached.along_ofColumn le) r run
          rcases List.mem_cons.mp mem with rfl | later
          · exact ⟨first, r, Nat.le_refl _, le, run, rfl⟩
          · rw [leads.along.place] at later
            obtain ⟨column, other, after, inside, own, rfl⟩ := ih leads.along.le_length later
            exact ⟨column, other, Nat.le_trans leads.along.first_le after, inside, own, rfl⟩
      · split at mem
        · next next there =>
            rw [Point.next?_ofColumn] at there
            split at there
            · next lt =>
                cases there
                obtain ⟨column, other, after, inside, own, rfl⟩ := ih lt mem
                exact ⟨column, other, Nat.le_of_succ_le after, inside, own, rfl⟩
            · cases there
        · cases mem

/-- Matches come from left to right and share no column. -/
theorem pairwise_findFrom (le : first ≤ line.length) :
    (p.findFrom fuel advance (.ofColumn line first)).Pairwise fun a b =>
      a.region.stop ≤ b.region.start := by
  induction fuel generalizing first advance with
  | zero => exact List.Pairwise.nil
  | succ fuel ih =>
      rw [findFrom]
      split
      · next r found =>
          have run := mem_runs_of_matchAt? found
          have leads := runs_leads p (Reached.along_ofColumn le) r run
          rw [leads.along.place]
          refine List.pairwise_cons.mpr ⟨fun other later => ?_, ih leads.along.le_length⟩
          obtain ⟨column, own, after, -, -, rfl⟩ :=
            exists_run_of_mem_findFrom leads.along.le_length later
          exact after
      · split
        · next next there =>
            rw [Point.next?_ofColumn] at there
            split at there
            · next lt =>
                cases there
                exact ih lt
            · cases there
        · exact List.Pairwise.nil

/-- All runs of a pattern in a line move on. -/
def Moves (p : Pattern) (line : Line) : Prop :=
  ∀ column ≤ line.length, ∀ r ∈ p.runs ⟨.ofColumn line column, []⟩, column < r.point.column

theorem matchAt?_false (p : Pattern) (point : Point) :
    p.matchAt? false point = (p.runs ⟨point, []⟩).head? := by
  rw [matchAt?]
  cases p.runs ⟨point, []⟩ <;> rfl

/-- The search comes to a column that no run goes past. -/
theorem Moves.mem_findFrom (moves : p.Moves line) {column : Nat} {r : Reached}
    (inside : column ≤ line.length)
    (clear : ∀ before < column, ∀ other ∈ p.runs ⟨.ofColumn line before, []⟩,
      other.point.column ≤ column)
    (best : (p.runs ⟨.ofColumn line column, []⟩).head? = some r) (le : first ≤ column)
    (enough : line.length < first + fuel) :
    matchOf column r ∈ p.findFrom fuel false (.ofColumn line first) := by
  induction fuel generalizing first with
  | zero => omega
  | succ fuel ih =>
      rw [findFrom, matchAt?_false]
      rcases Nat.lt_or_eq_of_le le with lt | rfl
      · have start : first < line.length := Nat.lt_of_lt_of_le lt inside
        cases found : (p.runs ⟨.ofColumn line first, []⟩).head? with
        | none =>
            dsimp only
            rw [Point.next?_ofColumn, if_pos start]
            exact ih lt (by omega)
        | some other =>
            have run := List.mem_of_head? found
            have on := moves first (Nat.le_of_lt start) other run
            have here : first ≤ line.length := Nat.le_of_lt start
            have along := (runs_leads p (Reached.along_ofColumn here) other run).along
            have still : (other.point.column == (Point.ofColumn line first).column) = false :=
              beq_false_of_ne (Nat.ne_of_gt on)
            dsimp only
            rw [still, along.place]
            exact List.mem_cons_of_mem _ (ih (clear first lt other run) (by omega))
      · rw [best]
        exact List.mem_cons_self

end Search

section Whole

theorem exists_run_of_mem_findAll {m : Match} (mem : m ∈ p.findAll line) :
    ∃ column r, column ≤ line.length ∧ r ∈ p.runs ⟨.ofColumn line column, []⟩ ∧
      m = matchOf column r := by
  obtain ⟨column, r, -, inside, run, same⟩ := exists_run_of_mem_findFrom (Nat.zero_le _) mem
  exact ⟨column, r, inside, run, same⟩

theorem inside_of_mem_findAll {m : Match} (mem : m ∈ p.findAll line) : m.Inside line := by
  obtain ⟨column, r, le, run, rfl⟩ := exists_run_of_mem_findAll mem
  exact inside_matchOf le run

theorem pairwise_findAll (p : Pattern) (line : Line) :
    (p.findAll line).Pairwise fun a b => a.region.stop ≤ b.region.start :=
  pairwise_findFrom (Nat.zero_le _)

theorem Moves.mem_findAll (moves : p.Moves line) {column : Nat} {r : Reached}
    (inside : column ≤ line.length)
    (clear : ∀ before < column, ∀ other ∈ p.runs ⟨.ofColumn line before, []⟩,
      other.point.column ≤ column)
    (best : (p.runs ⟨.ofColumn line column, []⟩).head? = some r) :
    matchOf column r ∈ p.findAll line :=
  moves.mem_findFrom inside clear best (Nat.zero_le _) (by omega)

end Whole

end Pattern

end LinkerScriptEditor
