import Mathlib.Data.List.Sort
import LinkerScriptEditor.Classification
import LinkerScriptEditor.Proofs.Pattern.Pieces
import LinkerScriptEditor.Proofs.Pattern.Search

/-!
# Precedence of rules

What a rule contributes to a line are those of its matches that meet no contribution of an earlier
rule. So the spans of a line share no column as long as no match captures a column twice, more rules
at the end of a table only fill what was left free, and a rule that is there already fills nothing.
-/

namespace LinkerScriptEditor

/-- No match of a rule captures a column for two of its spans. -/
def PatternRule.Separates (rule : PatternRule) : Prop :=
  ∀ line, ∀ m ∈ rule.pattern.findAll line,
    (Classification.groupSpans rule m).Pairwise fun a b => a.span.overlaps b.span = false

/-- Whether a match holds something and meets no region that is taken. -/
def Match.isFree (taken : List Span) (m : Match) : Bool :=
  !m.region.isEmpty && !taken.any m.region.overlaps

theorem Match.isFree_iff {taken : List Span} {m : Match} :
    m.isFree taken = true ↔ m.region.start < m.region.stop ∧
      ∀ region ∈ taken, m.region.overlaps region = false := by
  rw [isFree, Bool.and_eq_true, Bool.not_eq_true', Bool.not_eq_true',
    Span.isEmpty_eq_false_iff, List.any_eq_false]
  simp only [Bool.not_eq_true]

namespace Classification

variable {line : Line} {taken : List Span} {rule : PatternRule} {rules : List PatternRule}

/-- The matches of a rule that are free. -/
def unclaimed (line : Line) (taken : List Span) (rule : PatternRule) : List Match :=
  (rule.pattern.findAll line).filter (Match.isFree taken)

/-- What each rule of a table contributes to a line where some regions are taken. -/
def contributions (line : Line) : List Span → List PatternRule → List (List Match)
  | _, [] => []
  | taken, rule :: rest =>
    unclaimed line taken rule ::
      contributions line (taken ++ (unclaimed line taken rule).map Match.region) rest

/-- The regions that are taken when all rules have been tried. -/
def takenBy (line : Line) (taken : List Span) (rules : List PatternRule) : List Span :=
  taken ++ (contributions line taken rules).flatten.map Match.region

/-- The spans that the rules contribute, rule by rule. -/
def contributed (line : Line) (taken : List Span) (rules : List PatternRule) :
    List ClassifiedSpan :=
  (rules.zip (contributions line taken rules)).flatMap fun (rule, own) =>
    own.flatMap (groupSpans rule)

theorem mem_unclaimed_iff {m : Match} :
    m ∈ unclaimed line taken rule ↔ m ∈ rule.pattern.findAll line ∧
      m.region.start < m.region.stop ∧ ∀ region ∈ taken, m.region.overlaps region = false := by
  rw [unclaimed, List.mem_filter, Match.isFree_iff]

theorem takenBy_cons : takenBy line taken (rule :: rules) =
    takenBy line (taken ++ (unclaimed line taken rule).map Match.region) rules := by
  simp [takenBy, contributions]

theorem contributed_cons : contributed line taken (rule :: rules) =
    (unclaimed line taken rule).flatMap (groupSpans rule) ++
      contributed line (taken ++ (unclaimed line taken rule).map Match.region) rules := rfl

section Trying

/-- Among matches that share no column, a claim stands in the way of no other. -/
theorem foldl_claim {ms : List Match}
    (apart : ms.Pairwise fun a b => a.region.stop ≤ b.region.start)
    (found : List ClassifiedSpan) :
    ms.foldl (claim rule) ⟨taken, found⟩ =
      let own := ms.filter (Match.isFree taken)
      ⟨taken ++ own.map Match.region, found ++ own.flatMap (groupSpans rule)⟩ := by
  induction ms generalizing taken found with
  | nil => simp
  | cons m ms ih =>
      obtain ⟨behind, rest⟩ := List.pairwise_cons.mp apart
      have admits : Progress.admits ⟨taken, found⟩ m.region = m.isFree taken := rfl
      rw [List.foldl_cons, claim, admits]
      by_cases free : m.isFree taken = true
      · have same : ∀ other ∈ ms, other.isFree (taken ++ [m.region]) = other.isFree taken := by
          intro other mem
          have apart : other.region.overlaps m.region = false :=
            Span.overlaps_eq_false_iff.mpr (.inl (behind other mem))
          rw [Match.isFree, List.any_append, List.any_cons, apart, List.any_nil, Bool.or_false,
            Bool.or_false, Match.isFree]
        rw [if_pos free, ih rest, List.filter_cons_of_pos free, List.filter_congr same]
        simp
      · rw [if_neg free, ih rest, List.filter_cons_of_neg free]

theorem apply_eq (line : Line) (taken : List Span) (found : List ClassifiedSpan)
    (rule : PatternRule) :
    apply line ⟨taken, found⟩ rule =
      ⟨taken ++ (unclaimed line taken rule).map Match.region,
        found ++ (unclaimed line taken rule).flatMap (groupSpans rule)⟩ :=
  foldl_claim (Pattern.pairwise_findAll rule.pattern line) found

theorem foldl_apply (found : List ClassifiedSpan) :
    rules.foldl (apply line) ⟨taken, found⟩ =
      ⟨takenBy line taken rules, found ++ contributed line taken rules⟩ := by
  induction rules generalizing taken found with
  | nil => simp [takenBy, contributed, contributions]
  | cons rule rules ih =>
      rw [List.foldl_cons, apply_eq, ih, takenBy_cons, contributed_cons, List.append_assoc]

theorem ofLine_eq (rules : List PatternRule) (line : Line) :
    ofLine rules line = (contributed line [] rules).mergeSort inOrder := by
  rw [ofLine, foldl_apply, List.nil_append]

theorem perm_ofLine (rules : List PatternRule) (line : Line) :
    (ofLine rules line).Perm (contributed line [] rules) := by
  rw [ofLine_eq]
  exact List.mergeSort_perm _ _

end Trying

/-- At every place of a table a rule contributes its matches that are clear of earlier
contributions. -/
theorem getElem?_contributions (place : Nat) :
    (contributions line taken rules)[place]? = rules[place]?.map (unclaimed line
      (taken ++ ((contributions line taken rules).take place).flatten.map Match.region)) := by
  induction rules generalizing taken place with
  | nil => simp [contributions]
  | cons rule rules ih =>
      cases place with
      | zero => simp [contributions]
      | succ place =>
          rw [contributions, List.getElem?_cons_succ, List.getElem?_cons_succ, ih,
            List.take_succ_cons, List.flatten_cons, List.map_append, List.append_assoc]

theorem contributions_append (more : List PatternRule) :
    contributions line taken (rules ++ more) =
      contributions line taken rules ++ contributions line (takenBy line taken rules) more := by
  induction rules generalizing taken with
  | nil => simp [takenBy, contributions]
  | cons rule rules ih => rw [List.cons_append, contributions, ih, takenBy_cons]; rfl

theorem length_contributions : (contributions line taken rules).length = rules.length := by
  induction rules generalizing taken with
  | nil => rfl
  | cons rule rules ih => rw [contributions, List.length_cons, ih, List.length_cons]

theorem contributed_append (more : List PatternRule) :
    contributed line taken (rules ++ more) =
      contributed line taken rules ++ contributed line (takenBy line taken rules) more := by
  rw [contributed, contributions_append, List.zip_append length_contributions.symm,
    List.flatMap_append]
  rfl

theorem takenBy_concat (rules : List PatternRule) (rule : PatternRule) :
    takenBy line taken (rules ++ [rule]) = takenBy line taken rules ++
      (unclaimed line (takenBy line taken rules) rule).map Match.region := by
  rw [takenBy, contributions_append, List.flatten_append, List.map_append, ← List.append_assoc]
  simp [takenBy, contributions]

theorem mem_takenBy_of_mem {region : Span} (mem : region ∈ taken) (rules : List PatternRule) :
    region ∈ takenBy line taken rules := List.mem_append_left _ mem

/-- A rule that has been tried leaves no match of its own free. -/
theorem unclaimed_takenBy (mem : rule ∈ rules) :
    unclaimed line (takenBy line taken rules) rule = [] := by
  induction rules generalizing taken with
  | nil => cases mem
  | cons first rest ih =>
      rw [takenBy_cons]
      rcases List.mem_cons.mp mem with rfl | later
      · refine List.filter_eq_nil_iff.mpr fun m found free => ?_
        obtain ⟨some, clear⟩ := Match.isFree_iff.mp free
        have own : m ∈ unclaimed line taken rule := mem_unclaimed_iff.mpr ⟨found, some,
          fun region before => clear region (mem_takenBy_of_mem (List.mem_append_left _ before) _)⟩
        have self := clear m.region (mem_takenBy_of_mem
          (List.mem_append_right _ (List.mem_map_of_mem own)) _)
        rcases Span.overlaps_eq_false_iff.mp self with met | met <;> omega
      · exact ih later

theorem ofLine_concat_of_mem (mem : rule ∈ rules) (line : Line) :
    ofLine (rules ++ [rule]) line = ofLine rules line := by
  rw [ofLine_eq, contributed_append, contributed_cons, unclaimed_takenBy mem, ofLine_eq]
  simp [contributed, contributions]

section Spans

theorem mem_groupSpans_iff {m : Match} {s : ClassifiedSpan} :
    s ∈ groupSpans rule m ↔ ∃ number, (number, s.category) ∈ rule.groups ∧
      m.group? number = some s.span ∧ s.span.start < s.span.stop := by
  simp only [groupSpans, List.mem_filterMap, Option.map_eq_some_iff, Option.filter_eq_some_iff,
    Bool.not_eq_true', Span.isEmpty_eq_false_iff]
  constructor
  · rintro ⟨⟨number, category⟩, mem, span, ⟨found, some⟩, rfl⟩
    exact ⟨number, mem, found, some⟩
  · rintro ⟨number, mem, found, some⟩
    exact ⟨(number, s.category), mem, s.span, ⟨found, some⟩, rfl⟩

/-- The span of a match lies in its region. -/
theorem within_of_mem_groupSpans {m : Match} (inside : m.Inside line) {s : ClassifiedSpan}
    (mem : s ∈ groupSpans rule m) : s.span.start < s.span.stop ∧
      m.region.start ≤ s.span.start ∧ s.span.stop ≤ m.region.stop := by
  obtain ⟨number, -, found, some⟩ := mem_groupSpans_iff.mp mem
  obtain ⟨after, -, before⟩ := inside.groups number s.span found
  exact ⟨some, after, before⟩

theorem mem_contributed {s : ClassifiedSpan} (mem : s ∈ contributed line taken rules) :
    ∃ rule ∈ rules, ∃ m ∈ rule.pattern.findAll line, s ∈ groupSpans rule m := by
  induction rules generalizing taken with
  | nil => cases mem
  | cons rule rules ih =>
      rw [contributed_cons] at mem
      rcases List.mem_append.mp mem with own | later
      · obtain ⟨m, free, spans⟩ := List.mem_flatMap.mp own
        exact ⟨rule, List.mem_cons_self, m, (mem_unclaimed_iff.mp free).1, spans⟩
      · obtain ⟨other, listed, found⟩ := ih later
        exact ⟨other, List.mem_cons_of_mem rule listed, found⟩

theorem exists_of_mem_takenBy {region : Span} (mem : region ∈ takenBy line taken rules) :
    region ∈ taken ∨ ∃ rule ∈ rules, ∃ m ∈ rule.pattern.findAll line, m.region = region := by
  induction rules generalizing taken with
  | nil => exact .inl (by simpa [takenBy, contributions] using mem)
  | cons rule rules ih =>
      rw [takenBy_cons] at mem
      rcases ih mem with before | ⟨other, listed, found⟩
      · rcases List.mem_append.mp before with given | own
        · exact .inl given
        · obtain ⟨m, free, rfl⟩ := List.mem_map.mp own
          exact .inr ⟨rule, List.mem_cons_self, m, (mem_unclaimed_iff.mp free).1, rfl⟩
      · exact .inr ⟨other, List.mem_cons_of_mem rule listed, found⟩

/-- A category that one rule of a table has alone goes to the contributions of this rule. -/
theorem mem_ofLine_iff_of_category {earlier later : List PatternRule} {s : ClassifiedSpan}
    (alone : ∀ other ∈ earlier ++ later, s.category ∉ other.groups.map Prod.snd) :
    s ∈ ofLine (earlier ++ rule :: later) line ↔
      ∃ m ∈ unclaimed line (takenBy line [] earlier) rule, s ∈ groupSpans rule m := by
  have foreign : ∀ others ⊆ earlier ++ later, ∀ taken, s ∉ contributed line taken others := by
    intro others listed taken mem
    obtain ⟨other, there, m, -, spans⟩ := mem_contributed mem
    obtain ⟨number, own, -⟩ := mem_groupSpans_iff.mp spans
    exact alone other (listed there) (List.mem_map_of_mem own)
  rw [(perm_ofLine _ line).mem_iff, contributed_append, contributed_cons, List.mem_append,
    List.mem_append, List.mem_flatMap]
  have before := foreign earlier (List.subset_append_left _ _) []
  have after := foreign later (List.subset_append_right _ _)
  exact (or_iff_right before).trans (or_iff_left (after _))

theorem some_and_inside_of_mem_ofLine {s : ClassifiedSpan} (mem : s ∈ ofLine rules line) :
    s.span.start < s.span.stop ∧ s.span.stop ≤ line.length := by
  obtain ⟨rule, -, m, found, spans⟩ := mem_contributed ((perm_ofLine rules line).mem_iff.mp mem)
  have inside := Pattern.inside_of_mem_findAll found
  obtain ⟨some, -, before⟩ := within_of_mem_groupSpans inside spans
  exact ⟨some, Nat.le_trans before inside.stop_le_length⟩

/-- Contributions share no column with each other or with what was taken. -/
theorem apart_contributed (separates : ∀ rule ∈ rules, rule.Separates) :
    ((contributed line taken rules).Pairwise fun a b => a.span.overlaps b.span = false) ∧
      ∀ s ∈ contributed line taken rules, ∀ region ∈ taken, s.span.overlaps region = false := by
  induction rules generalizing taken with
  | nil => exact ⟨List.Pairwise.nil, nofun⟩
  | cons rule rules ih =>
      obtain ⟨own, others⟩ := List.forall_mem_cons.mp separates
      obtain ⟨apart, clear⟩ := @ih (taken ++ (unclaimed line taken rule).map Match.region) others
      have within : ∀ m ∈ unclaimed line taken rule, ∀ s ∈ groupSpans rule m,
          m.region.start ≤ s.span.start ∧ s.span.stop ≤ m.region.stop := by
        intro m free s mem
        have inside := Pattern.inside_of_mem_findAll (mem_unclaimed_iff.mp free).1
        exact (within_of_mem_groupSpans inside mem).2
      rw [contributed_cons]
      constructor
      · refine List.pairwise_append.mpr ⟨List.pairwise_flatMap.mpr ⟨?_, ?_⟩, apart, ?_⟩
        · exact fun m free => own line m (mem_unclaimed_iff.mp free).1
        · have ordered := (Pattern.pairwise_findAll rule.pattern line).filter (Match.isFree taken)
          refine ordered.imp_of_mem fun {a b} first second le s inA t inB => ?_
          have beforeA := within a first s inA
          have beforeB := within b second t inB
          exact Span.overlaps_eq_false_iff.mpr (.inr (by omega))
        · intro s mem t later
          obtain ⟨m, free, spans⟩ := List.mem_flatMap.mp mem
          have inA := within m free s spans
          have met := clear t later m.region (List.mem_append_right _ (List.mem_map_of_mem free))
          rw [Span.overlaps_eq_false_iff] at met ⊢
          omega
      · intro s mem region before
        rcases List.mem_append.mp mem with spans | later
        · obtain ⟨m, free, spans⟩ := List.mem_flatMap.mp spans
          have inA := within m free s spans
          have met := (mem_unclaimed_iff.mp free).2.2 region before
          rw [Span.overlaps_eq_false_iff] at met ⊢
          omega
        · exact clear s later region (List.mem_append_left _ before)

end Spans

section Order

theorem inOrder_iff {a b : ClassifiedSpan} : inOrder a b = true ↔ a.span.start < b.span.start ∨
    a.span.start = b.span.start ∧ a.span.stop ≤ b.span.stop := by
  rw [inOrder, Bool.or_eq_true, Bool.and_eq_true, decide_eq_true_iff, beq_iff_eq,
    decide_eq_true_iff]

variable (separates : ∀ rule ∈ rules, rule.Separates)
include separates

theorem pairwise_ofLine (line : Line) :
    (ofLine rules line).Pairwise fun a b => a.span.stop ≤ b.span.start := by
  have sorted : (ofLine rules line).Pairwise fun a b => inOrder a b = true := by
    rw [ofLine_eq]
    apply List.pairwise_mergeSort
    · intro a b c
      simp only [inOrder_iff]
      omega
    · intro a b
      rw [Bool.or_eq_true, inOrder_iff, inOrder_iff]
      omega
  have apart : (ofLine rules line).Pairwise fun a b => a.span.overlaps b.span = false := by
    refine (perm_ofLine rules line).symm.pairwise (apart_contributed separates).1 ?_
    intro a b free
    rwa [Span.overlaps_comm]
  refine (sorted.and apart).imp_of_mem fun first second both => ?_
  have someA := (some_and_inside_of_mem_ofLine first).1
  have someB := (some_and_inside_of_mem_ofLine second).1
  obtain ⟨before, free⟩ := both
  rw [inOrder_iff] at before
  rw [Span.overlaps_eq_false_iff] at free
  omega

theorem strict_ofLine (line : Line) :
    (ofLine rules line).Pairwise fun a b => a.span.start < b.span.start := by
  refine (pairwise_ofLine separates line).imp_of_mem fun first _ le => ?_
  exact Nat.lt_of_lt_of_le (some_and_inside_of_mem_ofLine first).1 le

end Order

/-- What a table finds, it finds with more rules behind it. -/
theorem sublist_ofLine_append {more : List PatternRule}
    (separates : ∀ rule ∈ rules ++ more, rule.Separates) (line : Line) :
    (ofLine rules line).Sublist (ofLine (rules ++ more) line) := by
  have : Std.Antisymm fun a b : ClassifiedSpan => a.span.start < b.span.start :=
    ⟨fun a b first second => absurd first (Nat.lt_asymm second)⟩
  have within : (ofLine rules line).Subperm (ofLine (rules ++ more) line) := by
    refine (perm_ofLine rules line).subperm.trans (.trans ?_ (perm_ofLine _ line).symm.subperm)
    rw [contributed_append]
    exact (List.sublist_append_left _ _).subperm
  exact List.sublist_of_subperm_of_pairwise within
    (strict_ofLine (fun rule mem => separates rule (List.mem_append_left _ mem)) line)
    (strict_ofLine separates line)

section Rules

theorem separates_of_length_le_one (few : rule.groups.length ≤ 1) : rule.Separates := by
  intro line m _
  have short : (groupSpans rule m).length ≤ 1 :=
    Nat.le_trans (List.length_filterMap_le _ _) few
  rcases spans : groupSpans rule m with _ | ⟨s, _ | ⟨t, rest⟩⟩
  · exact List.Pairwise.nil
  · exact List.pairwise_singleton _ _
  · rw [spans] at short
    simp at short

/-- A match of the wildcard rule: a star, an opening bracket, and all up to a closing one. -/
theorem exists_of_mem_findAll_wildcardSection {m : Match}
    (mem : m ∈ PatternRule.wildcardSection.pattern.findAll line) :
    ∃ first last, first + 2 ≤ last ∧ m = ⟨⟨first, last + 1⟩,
        [(2, ⟨first + 2, last⟩), (1, ⟨first, first + 1⟩)]⟩ ∧
      Line.has (· == '*') line first = true ∧ Line.has (· == '(') line (first + 1) = true ∧
      Line.has (· == ')') line last = true := by
  obtain ⟨first, r, le, run, rfl⟩ := Pattern.exists_run_of_mem_findAll mem
  obtain ⟨star, starred, run⟩ := List.mem_flatMap.mp run
  obtain ⟨_, inside, ⟨hasStar, rfl⟩, rfl⟩ :=
    ((Pattern.reads_one (· == '*')).mem_runs_group 1 le).mp starred
  obtain ⟨opening, opened, run⟩ := List.mem_flatMap.mp run
  obtain ⟨_, inside, ⟨hasOpening, rfl⟩, rfl⟩ :=
    (Pattern.reads_one (· == '(') _ _ _ _ inside).mp opened
  obtain ⟨content, filled, run⟩ := List.mem_flatMap.mp run
  obtain ⟨last, inside, stretch, rfl⟩ :=
    ((Pattern.reads_star_one _).mem_runs_group 2 inside).mp filled
  obtain ⟨_, inside, ⟨hasClosing, rfl⟩, rfl⟩ :=
    (Pattern.reads_one (· == ')') _ _ _ _ inside).mp run
  exact ⟨first, last, stretch.le, rfl, hasStar, hasOpening, hasClosing⟩

theorem separates_wildcardSection : PatternRule.wildcardSection.Separates := by
  intro line m mem
  obtain ⟨first, last, le, rfl, -⟩ := exists_of_mem_findAll_wildcardSection mem
  refine List.pairwise_filterMap.mpr (List.pairwise_pair.mpr ?_)
  intro star found name named
  obtain ⟨_, captured, rfl⟩ := Option.map_eq_some_iff.mp found
  obtain ⟨_, within, rfl⟩ := Option.map_eq_some_iff.mp named
  cases (Option.filter_eq_some_iff.mp captured).1
  cases (Option.filter_eq_some_iff.mp within).1
  exact Span.overlaps_eq_false_iff.mpr (.inr (Nat.le_succ _))

theorem separates_of_mem_table (mem : rule ∈ PatternRule.table) : rule.Separates := by
  simp only [PatternRule.table, List.mem_cons, List.not_mem_nil, or_false] at mem
  rcases mem with rfl | rfl | rfl | rfl | rfl | rfl
  · exact separates_of_length_le_one (Nat.le_refl 1)
  · exact separates_of_length_le_one (Nat.le_refl 1)
  · exact separates_of_length_le_one (Nat.le_refl 1)
  · exact separates_wildcardSection
  · exact separates_of_length_le_one (Nat.le_refl 1)
  · exact separates_of_length_le_one (Nat.le_refl 1)

end Rules

section Text

variable {α : Type}

theorem le_of_mem_zipIdx_flatMap {lists : List (List α)} {first : Nat} {entry : Nat × α}
    (mem : entry ∈ (lists.zipIdx first).flatMap fun (list, row) => list.map (row, ·)) :
    first ≤ entry.1 := by
  obtain ⟨⟨list, row⟩, numbered, own⟩ := List.mem_flatMap.mp mem
  obtain ⟨item, -, rfl⟩ := List.mem_map.mp own
  exact List.le_snd_of_mem_zipIdx numbered

/-- Numbered lists come in the order of their numbers. -/
theorem pairwise_zipIdx_flatMap (lists : List (List α)) (first : Nat) :
    ((lists.zipIdx first).flatMap fun (list, row) => list.map (row, ·)).Pairwise
      fun a b => a.1 ≤ b.1 := by
  induction lists generalizing first with
  | nil => exact List.Pairwise.nil
  | cons list lists ih =>
      rw [List.zipIdx_cons, List.flatMap_cons]
      refine List.pairwise_append.mpr ⟨?_, ih (first + 1), ?_⟩
      · exact List.pairwise_map.mpr (List.pairwise_of_forall fun _ _ => Nat.le_refl _)
      · intro entry mem other later
        obtain ⟨item, -, rfl⟩ := List.mem_map.mp mem
        exact Nat.le_of_succ_le (le_of_mem_zipIdx_flatMap later)

/-- What is numbered with a row is the list of the row. -/
theorem filter_zipIdx_flatMap (lists : List (List α)) (first row : Nat) :
    (((lists.zipIdx first).flatMap fun (list, row) => list.map (row, ·)).filter
      (·.1 == first + row)).map Prod.snd = lists[row]?.getD [] := by
  induction lists generalizing first row with
  | nil => rfl
  | cons list lists ih =>
      rw [List.zipIdx_cons, List.flatMap_cons, List.filter_append, List.map_append]
      cases row with
      | zero =>
          have own : (list.map (first, ·)).filter (·.1 == first + 0) = list.map (first, ·) := by
            refine List.filter_eq_self.mpr fun entry mem => ?_
            obtain ⟨item, -, rfl⟩ := List.mem_map.mp mem
            exact beq_self_eq_true first
          have later : ((lists.zipIdx (first + 1)).flatMap fun (list, row) =>
              list.map (row, ·)).filter (·.1 == first + 0) = [] := by
            refine List.filter_eq_nil_iff.mpr fun entry mem same => ?_
            have after := le_of_mem_zipIdx_flatMap mem
            rw [eq_of_beq same] at after
            omega
          rw [own, later]
          simp
      | succ row =>
          have own : (list.map (first, ·)).filter (·.1 == first + (row + 1)) = [] := by
            refine List.filter_eq_nil_iff.mpr fun entry mem same => ?_
            obtain ⟨item, -, rfl⟩ := List.mem_map.mp mem
            have differ := eq_of_beq same
            omega
          rw [own, List.map_nil, List.nil_append, List.getElem?_cons_succ, ← ih (first + 1) row,
            Nat.add_assoc, Nat.add_comm 1 row]

end Text

end Classification

end LinkerScriptEditor
