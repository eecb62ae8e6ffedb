import LinkerScriptEditor.Proofs.Pattern.Pieces
import LinkerScriptEditor.Proofs.Pattern.Search
import LinkerScriptEditor.Text.CharClass

/-!
# Words of a line

The words of a line are its longest runs of word characters. A pattern of whole words finds just the
words of the line that it accepts.
-/

namespace LinkerScriptEditor

open CharClass

namespace Line

/-- The text of a span. -/
def text (line : Line) (s : Span) : List Char := (line.drop s.start).take (s.stop - s.start)

/-- A span of word characters with none in front of it and none behind it. -/
structure IsWord (line : Line) (s : Span) : Prop where
  some : s.start < s.stop
  stretch : Stretch isWord line s.start s.stop
  before : hasBefore isWord line s.start = false
  after : has isWord line s.stop = false

variable {line : Line} {s t : Span} {word : List Char} {first last : Nat} {p : Char → Bool}

instance (p : Char → Bool) (line : Line) (first last : Nat) :
    Decidable (Stretch p line first last) :=
  decidable_of_iff (first ≤ last ∧ ∀ column < last, first ≤ column → has p line column = true)
    ⟨fun ⟨le, has⟩ => ⟨le, fun column after before => has column before after⟩,
      fun ⟨le, has⟩ => ⟨le, fun column before after => has column after before⟩⟩

instance (line : Line) (s : Span) : Decidable (IsWord line s) :=
  decidable_of_iff (s.start < s.stop ∧ Stretch isWord line s.start s.stop ∧
      hasBefore isWord line s.start = false ∧ has isWord line s.stop = false)
    ⟨fun ⟨lt, stretch, before, after⟩ => ⟨lt, stretch, before, after⟩,
      fun ⟨lt, stretch, before, after⟩ => ⟨lt, stretch, before, after⟩⟩

theorem IsWord.stop_le_length (run : IsWord line s) : s.stop ≤ line.length := by
  have some := run.some
  have last := lt_length_of_has (run.stretch.has (s.stop - 1) (by omega) (by omega))
  omega

theorem hasBefore_eq_has {column : Nat} (pos : 0 < column) :
    hasBefore p line column = has p line (column - 1) := by
  cases column with
  | zero => cases pos
  | succ column => rfl

/-- No word goes on at a column. -/
def Gap (line : Line) (column : Nat) : Prop :=
  hasBefore isWord line column = true → has isWord line column = false

/-- A boundary that is only asked for where a word may begin is a gap. -/
theorem gap_iff_of_has {column : Nat} : Gap line column ↔ (has isWord line column = true →
    hasBefore isWord line column ≠ has isWord line column) := by
  rw [Gap]
  cases hasBefore isWord line column <;> cases has isWord line column <;> decide

/-- A boundary that is only asked for where a word may end is a gap. -/
theorem gap_iff_of_hasBefore {column : Nat} :
    Gap line column ↔ (hasBefore isWord line column = true →
      hasBefore isWord line column ≠ has isWord line column) := by
  rw [Gap]
  cases hasBefore isWord line column <;> cases has isWord line column <;> decide

theorem IsWord.le_or_le_of_gap (run : IsWord line s) {column : Nat} (gap : Gap line column) :
    column ≤ s.start ∨ s.stop ≤ column := by
  refine Decidable.or_iff_not_not_and_not.mpr fun ⟨after, before⟩ => ?_
  have left := run.stretch.has (column - 1) (by omega) (by omega)
  have right := run.stretch.has column (by omega) (by omega)
  rw [gap (by rwa [hasBefore_eq_has (by omega)])] at right
  cases right

theorem IsWord.gap_start (run : IsWord line s) : Gap line s.start := by
  rw [Gap, run.before]
  nofun

theorem IsWord.gap_stop (run : IsWord line s) : Gap line s.stop := fun _ => run.after

theorem IsWord.stop_le_start (one : IsWord line s) (two : IsWord line t) (lt : s.start < t.start) :
    s.stop ≤ t.start :=
  (one.le_or_le_of_gap two.gap_start).resolve_left (Nat.not_le.mpr lt)

/-- A word is as long as it can be. -/
theorem IsWord.eq_of_within (run : IsWord line s) (stretch : Stretch isWord line first last)
    (after : first ≤ s.start) (before : s.stop ≤ last) : s = ⟨first, last⟩ := by
  have lt := run.some
  have start : s.start = first := by
    refine Nat.le_antisymm (Nat.le_of_not_lt fun later => ?_) after
    have inside := stretch.has (s.start - 1) (by omega) (by omega)
    rw [← hasBefore_eq_has (by omega), run.before] at inside
    cases inside
  have stop : s.stop = last := by
    refine Nat.le_antisymm before (Nat.le_of_not_lt fun sooner => ?_)
    have inside := stretch.has s.stop (by omega) sooner
    rw [run.after] at inside
    cases inside
  rw [← start, ← stop]

/-- Words that share a column are the same. -/
theorem IsWord.eq_of_overlaps (one : IsWord line s) (two : IsWord line t)
    (overlaps : s.overlaps t = true) : s = t := by
  have shared := Span.overlaps_iff.mp overlaps
  exact one.eq_of_within two.stretch
    ((one.le_or_le_of_gap two.gap_start).resolve_right (Nat.not_le.mpr shared.2))
    ((one.le_or_le_of_gap two.gap_stop).resolve_left (Nat.not_le.mpr shared.1))

theorem has_of_has_beq {c : Char} {column : Nat} (there : has (· == c) line column = true) :
    has p line column = p c := by
  obtain ⟨other, own, same⟩ := has_iff.mp there
  rw [has, own, eq_of_beq same, Option.any_some]

/-- A text that stands at a column gives the characters of the columns that follow. -/
theorem has_of_prefix (stands : word <+: line.drop first) {column : Nat}
    (lt : column < word.length) : has p line (first + column) = p word[column] := by
  obtain ⟨rest, split⟩ := stands
  rw [has, ← List.getElem?_drop, ← split, List.getElem?_append_left lt,
    List.getElem?_eq_getElem lt, Option.any_some]

theorem head?_any_of_prefix (some : word ≠ []) (stands : word <+: line.drop first) :
    word.head?.any p = has p line first := by
  have pos : 0 < word.length := List.length_pos_iff.mpr some
  have opening := has_of_prefix (p := p) stands pos
  rw [List.head?_eq_some_head some, Option.any_some, ← List.getElem_zero pos, ← opening]
  rfl

theorem getLast?_any_of_prefix (some : word ≠ []) (stands : word <+: line.drop first) :
    word.getLast?.any p = hasBefore p line (first + word.length) := by
  have pos : 0 < word.length := List.length_pos_iff.mpr some
  have closing := has_of_prefix (p := p) stands (Nat.sub_lt pos Nat.one_pos)
  rw [List.getLast?_eq_some_getLast some, Option.any_some, List.getLast_eq_getElem, ← closing,
    hasBefore_eq_has (by omega), Nat.add_sub_assoc pos]

theorem has_of_prefix_of_forall {b : Bool} (stands : word <+: line.drop first)
    (same : ∀ c ∈ word, p c = b) {column : Nat} (after : first ≤ column)
    (before : column < first + word.length) : has p line column = b := by
  have lt : column - first < word.length := by omega
  have own := has_of_prefix (p := p) stands lt
  rw [Nat.add_sub_cancel' after] at own
  rw [own]
  exact same _ (List.getElem_mem lt)

theorem stretch_of_prefix (stands : word <+: line.drop first) (all : ∀ c ∈ word, p c = true) :
    Stretch p line first (first + word.length) :=
  ⟨Nat.le_add_right _ _, fun _ => has_of_prefix_of_forall stands all⟩

theorem text_of_prefix (stands : word <+: line.drop first) :
    text line ⟨first, first + word.length⟩ = word := by
  rw [text, Nat.add_sub_cancel_left, List.prefix_iff_eq_take.mp stands |>.symm]

theorem add_length_le_of_prefix (some : word ≠ []) (stands : word <+: line.drop first) :
    first + word.length ≤ line.length := by
  have pos := List.length_pos_iff.mpr some
  have le := stands.length_le
  rw [List.length_drop] at le
  omega

theorem append_prefix_drop_iff {rest : List Char} :
    word ++ rest <+: line.drop first ↔
      word <+: line.drop first ∧ rest <+: line.drop (first + word.length) := by
  rw [← List.drop_drop]
  constructor
  · rintro ⟨behind, split⟩
    rw [← split, List.append_assoc, List.drop_left]
    exact ⟨List.prefix_append _ _, List.prefix_append _ _⟩
  · rintro ⟨⟨tail, split⟩, stands⟩
    rw [← split, List.drop_left] at stands
    rw [← split]
    exact (List.prefix_append_right_inj word).mpr stands

/-- A stretch is a text of characters of the class. -/
theorem stretch_iff_prefix (le : last ≤ line.length) :
    Stretch p line first last ↔
      ∃ word, (∀ c ∈ word, p c = true) ∧ word <+: line.drop first ∧ last = first + word.length := by
  constructor
  · intro stretch
    have lt := stretch.le
    refine ⟨(line.drop first).take (last - first), ?_, List.take_prefix _ _, ?_⟩
    · intro c mem
      obtain ⟨column, there, rfl⟩ := List.mem_iff_getElem.mp mem
      rw [List.length_take, List.length_drop] at there
      have own := stretch.has (first + column) (by omega) (by omega)
      rw [List.getElem_take, List.getElem_drop]
      rwa [has, List.getElem?_eq_getElem (by omega), Option.any_some] at own
    · rw [List.length_take, List.length_drop]
      omega
  · rintro ⟨word, all, stands, rfl⟩
    exact stretch_of_prefix stands all

/-- A text of word characters that stands between two word boundaries is a word. -/
theorem isWord_iff_of_word (some : word ≠ []) (all : ∀ c ∈ word, isWord c = true) :
    (hasBefore isWord line first ≠ has isWord line first ∧ (word <+: line.drop first ∧
        last = first + word.length) ∧ hasBefore isWord line last ≠ has isWord line last) ↔
      IsWord line ⟨first, last⟩ ∧ text line ⟨first, last⟩ = word := by
  have pos : 0 < word.length := List.length_pos_iff.mpr some
  constructor
  · rintro ⟨left, ⟨stands, rfl⟩, right⟩
    have stretch := stretch_of_prefix stands all
    have opens := stretch.has first (Nat.le_refl _) (by omega)
    have closes := stretch.has (first + word.length - 1) (by omega) (by omega)
    rw [opens, ne_eq, Bool.not_eq_true] at left
    rw [hasBefore_eq_has (by omega), closes, ne_comm, ne_eq, Bool.not_eq_true] at right
    exact ⟨⟨Nat.lt_add_of_pos_right pos, stretch, left, right⟩, text_of_prefix stands⟩
  · rintro ⟨run, rfl⟩
    have lt : first < last := run.some
    have le : last ≤ line.length := run.stop_le_length
    have stretch : Stretch isWord line first last := run.stretch
    have opens := stretch.has first (Nat.le_refl _) lt
    have closes := stretch.has (last - 1) (by omega) (by omega)
    refine ⟨?_, ⟨List.take_prefix _ _, ?_⟩, ?_⟩
    · rw [run.before, opens]
      nofun
    · change last = first + ((line.drop first).take (last - first)).length
      rw [List.length_take, List.length_drop]
      omega
    · rw [hasBefore_eq_has (by omega), closes, run.after]
      nofun

end Line

namespace Pattern

variable {p : Pattern} {wanted : List Char → Prop} {line : Line}

/-- A pattern reads just the words of a line whose text is wanted. -/
def ReadsWords (p : Pattern) (wanted : List Char → Prop) : Prop :=
  p.Reads fun line first last =>
    Line.IsWord line ⟨first, last⟩ ∧ wanted (Line.text line ⟨first, last⟩)

/-- Nothing stands in the way of a word, so a search finds all words that are wanted. -/
theorem ReadsWords.mem_findAll_iff (reads : p.ReadsWords wanted) {m : Match} :
    m ∈ p.findAll line ↔
      ∃ s, Line.IsWord line s ∧ wanted (Line.text line s) ∧ m = ⟨s, []⟩ := by
  have word : ∀ column ≤ line.length, ∀ r ∈ p.runs ⟨.ofColumn line column, []⟩,
      Line.IsWord line ⟨column, r.point.column⟩ ∧
        wanted (Line.text line ⟨column, r.point.column⟩) ∧ r.groups = [] := by
    intro column le r run
    obtain ⟨last, -, ⟨own, text⟩, rfl⟩ := (reads line column [] r le).mp run
    exact ⟨own, text, rfl⟩
  constructor
  · intro mem
    obtain ⟨column, r, le, run, rfl⟩ := exists_run_of_mem_findAll mem
    obtain ⟨own, text, none⟩ := word column le r run
    exact ⟨_, own, text, by rw [matchOf, none]⟩
  · rintro ⟨⟨first, last⟩, own, text, rfl⟩
    have start_le : first ≤ line.length :=
      Nat.le_trans (Nat.le_of_lt own.some) own.stop_le_length
    have run := (reads line first [] ⟨.ofColumn line last, []⟩ start_le).mpr
      ⟨last, own.stop_le_length, ⟨own, text⟩, rfl⟩
    have moves : p.Moves line := fun column le r run => (word column le r run).1.some
    -- a run from an earlier column reads another word, and that ends before this one begins
    have clear : ∀ before < first, ∀ other ∈ p.runs ⟨.ofColumn line before, []⟩,
        other.point.column ≤ first := by
      intro before lt other found
      exact (word before (by omega) other found).1.stop_le_start own lt
    obtain ⟨r, best⟩ :=
      Option.isSome_iff_exists.mp (List.isSome_head?.mpr (List.ne_nil_of_mem run))
    obtain ⟨other, -, ⟨same, -⟩, rfl⟩ :=
      (reads line first [] r start_le).mp (List.mem_of_head? best)
    cases same.eq_of_overlaps own (Span.overlaps_iff.mpr ⟨own.some, same.some⟩)
    exact moves.mem_findAll start_le clear best

/-- A pattern of texts of word characters between word boundaries. -/
theorem Reads.readsWords (spelled : ∀ word, wanted word → word ≠ [] ∧
      ∀ c ∈ word, CharClass.isWord c = true)
    (reads : p.Reads fun line first last =>
      Line.hasBefore CharClass.isWord line first ≠ Line.has CharClass.isWord line first ∧
        (∃ word, wanted word ∧ word <+: line.drop first ∧ last = first + word.length) ∧
        Line.hasBefore CharClass.isWord line last ≠ Line.has CharClass.isWord line last) :
    p.ReadsWords wanted := by
  refine reads.congr fun line first last => ⟨?_, ?_⟩
  · rintro ⟨left, ⟨word, want, stands⟩, right⟩
    obtain ⟨some, all⟩ := spelled word want
    obtain ⟨own, rfl⟩ := (Line.isWord_iff_of_word some all).mp ⟨left, stands, right⟩
    exact ⟨own, want⟩
  · rintro ⟨own, want⟩
    obtain ⟨some, all⟩ := spelled _ want
    obtain ⟨left, stands, right⟩ := (Line.isWord_iff_of_word some all).mpr ⟨own, rfl⟩
    exact ⟨left, ⟨_, want, stands⟩, right⟩

end Pattern

end LinkerScriptEditor
