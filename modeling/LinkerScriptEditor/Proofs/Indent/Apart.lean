import LinkerScriptEditor.Proofs.Comment.Erasure
import LinkerScriptEditor.Proofs.Indent.Closing

/-!
# Braces apart from comments

Braces and comments keep apart if no brace lies inside a comment and no row whose text begins inside
one holds a brace. On such lines comments hide no brace, and a row that shows one begins with the
same character with and without its comments. Leading blanks have no say in it.
-/

namespace LinkerScriptEditor.Indent

def isBrace (c : Char) : Bool := c == '{' || c == '}'

/-- Whether the lines have a brace at a place. -/
def braceAt (lines : List Line) (place : Place) : Bool :=
  ((lines.getD place.row [])[place.column]?).any isBrace

/-- No brace lies inside a comment, and a row whose text begins inside a comment holds no brace
outside of comments. -/
structure Apart (lines : List Line) : Prop where
  free : ∀ row < lines.length, ∀ column < (lines.getD row []).length,
    braceAt lines ⟨row, column⟩ = true → Comment.isInside lines ⟨row, column⟩ = false
  led : ∀ row < lines.length,
    Comment.isInside lines ⟨row, Line.indentation (lines.getD row [])⟩ = true →
      ∀ column < (lines.getD row []).length,
        braceAt lines ⟨row, column⟩ = true → Comment.isInside lines ⟨row, column⟩ = true

instance (lines : List Line) : Decidable (Apart lines) :=
  decidable_of_iff
    ((∀ row < lines.length, ∀ column < (lines.getD row []).length,
        braceAt lines ⟨row, column⟩ = true → Comment.isInside lines ⟨row, column⟩ = false) ∧
      ∀ row < lines.length,
        Comment.isInside lines ⟨row, Line.indentation (lines.getD row [])⟩ = true →
          ∀ column < (lines.getD row []).length,
            braceAt lines ⟨row, column⟩ = true → Comment.isInside lines ⟨row, column⟩ = true)
    ⟨fun ⟨free, led⟩ => ⟨free, led⟩, fun ⟨free, led⟩ => ⟨free, led⟩⟩

/-- If the line holds a brace, neither the brace nor the beginning of the text is inside a comment.
-/
def Clear (inside : Bool) (text : Line) : Prop :=
  ∀ column c, text[column]? = some c → isBrace c = true →
    Comment.insideAt inside text column = false ∧
      Comment.insideAt inside text (Line.indentation text) = false

theorem braceAt_iff {lines : List Line} {row column : Nat} :
    braceAt lines ⟨row, column⟩ = true ↔
      ∃ c, (lines.getD row [])[column]? = some c ∧ isBrace c = true := by
  simp only [braceAt]
  cases (lines.getD row [])[column]? <;> simp

theorem Apart.clear {lines : List Line} (apart : Apart lines) (row : Nat) :
    Clear (Comment.startsInside lines row) (lines.getD row []) := by
  intro column c found brace
  have columnBound := (List.getElem?_eq_some_iff.mp found).1
  have rowBound : row < lines.length := by
    by_contra past
    simp [List.getD_eq_getElem?_getD, past] at found
  have held := braceAt_iff.mpr ⟨c, found, brace⟩
  have free := apart.free row rowBound column columnBound held
  refine ⟨free, Bool.eq_false_iff.mpr fun begins => ?_⟩
  have hidden := apart.led row rowBound begins column columnBound held
  exact Bool.false_ne_true (free.symm.trans hidden)

theorem apart_of_clear {lines : List Line}
    (clear : ∀ row, Clear (Comment.startsInside lines row) (lines.getD row [])) :
    Apart lines := by
  constructor
  · intro row _ column _ held
    obtain ⟨c, found, brace⟩ := braceAt_iff.mp held
    exact (clear row column c found brace).1
  · intro row _ begins column _ held
    obtain ⟨c, found, brace⟩ := braceAt_iff.mp held
    exact absurd ((clear row column c found brace).2.symm.trans begins) Bool.false_ne_true

section Clear

variable {inside : Bool} {line : Line} {c : Char}

theorem isBrace_of_blank (blank : Line.isBlank c = true) : isBrace c = false := by
  simp only [Line.isBlank, Bool.or_eq_true, beq_iff_eq] at blank
  rcases blank with rfl | rfl <;> rfl

theorem clear_cons_of_blank (blank : Line.isBlank c = true) :
    Clear inside (c :: line) ↔ Clear inside line := by
  have begins := Line.indentation_cons_of_blank blank line
  constructor
  · intro clear column d found brace
    have later := clear (column + 1) d (by simpa using found) brace
    rwa [begins, Comment.insideAt_cons_of_blank blank, Comment.insideAt_cons_of_blank blank]
      at later
  · intro clear column d found brace
    cases column with
    | zero =>
        obtain rfl : c = d := by simpa using found
        rw [isBrace_of_blank blank] at brace
        cases brace
    | succ column =>
        rw [begins, Comment.insideAt_cons_of_blank blank, Comment.insideAt_cons_of_blank blank]
        exact clear column d (by simpa using found) brace

theorem clear_body_iff : Clear inside (Line.body line) ↔ Clear inside line := by
  induction line with
  | nil => rfl
  | cons c rest ih =>
      by_cases blank : Line.isBlank c = true
      · rw [Line.body_cons_of_blank blank, ih, clear_cons_of_blank blank]
      · rw [Line.body_cons_of_not_blank blank]

/-- Comments hide no brace. -/
theorem Clear.mem_blankOut_iff (clear : Clear inside line) (brace : isBrace c = true) :
    c ∈ Comment.blankOut inside line ↔ c ∈ line := by
  have other : ' ' ≠ c := by
    rintro rfl
    cases brace
  simp only [List.mem_iff_getElem?, Comment.getElem?_blankOut, Option.map_eq_some_iff]
  constructor
  · rintro ⟨column, d, found, shown⟩
    split at shown
    · exact absurd shown other
    · exact ⟨column, shown ▸ found⟩
  · rintro ⟨column, found⟩
    refine ⟨column, c, found, ?_⟩
    rw [(clear column c found brace).1, if_neg Bool.false_ne_true]

/-- A line whose text begins outside of comments shows how it begins. -/
theorem head?_body_blankOut
    (begins : Comment.insideAt inside line (Line.indentation line) = false) :
    (Line.body (Comment.blankOut inside line)).head? = (Line.body line).head? := by
  induction line with
  | nil => rfl
  | cons c rest ih =>
      by_cases blank : Line.isBlank c = true
      · obtain ⟨first, leading, shown⟩ := Comment.blankOut_cons_of_blank blank inside rest
        rw [Line.indentation_cons_of_blank blank, Comment.insideAt_cons_of_blank blank] at begins
        rw [shown, Line.body_cons_of_blank leading, Line.body_cons_of_blank blank, ih begins]
      · rw [Line.indentation_cons_of_not_blank blank] at begins
        have first : (Comment.blankOut inside (c :: rest)).head? = some c := by
          simp [List.head?_eq_getElem?, Comment.getElem?_blankOut, begins]
        obtain ⟨others, shown⟩ := List.head?_eq_some_iff.mp first
        rw [shown, Line.body_cons_of_not_blank blank, Line.body_cons_of_not_blank blank]
        rfl

/-- A walk upward counts the same braces on a line with and without its comments. -/
theorem Clear.scanRule?_blankOut (clear : Clear inside line) :
    scanRule? (Comment.blankOut inside line) = scanRule? line := by
  have opening : '{' ∈ Comment.blankOut inside line ↔ '{' ∈ line := clear.mem_blankOut_iff rfl
  have closing : '}' ∈ Comment.blankOut inside line ↔ '}' ∈ line := clear.mem_blankOut_iff rfl
  simp [scanRule?, scanRules, List.find?_cons, opening, closing]

/-- A line whose text begins inside a comment holds no brace. -/
theorem Clear.not_isBrace (clear : Clear inside line)
    (begins : Comment.insideAt inside line (Line.indentation line) = true) (mem : c ∈ line) :
    isBrace c ≠ true := by
  intro brace
  obtain ⟨column, found⟩ := List.mem_iff_getElem?.mp mem
  exact Bool.false_ne_true ((clear column c found brace).2.symm.trans begins)

theorem Clear.scanRule?_eq_none (clear : Clear inside line)
    (begins : Comment.insideAt inside line (Line.indentation line) = true) :
    scanRule? line = none := by
  apply scanRule?_of_neither
  · exact fun closing => clear.not_isBrace begins closing rfl
  · exact fun opening => clear.not_isBrace begins opening rfl

theorem leadingRule?_of_no_brace (free : ∀ c ∈ line, isBrace c ≠ true) :
    leadingRule? line = none := by
  apply leadingRule?_of_other
  intro c first
  have mem : c ∈ line := (List.dropWhile_sublist _).mem (List.mem_of_mem_head? first)
  refine ⟨?_, ?_⟩
  · rintro rfl
    exact free _ mem rfl
  · rintro rfl
    exact free _ mem rfl

/-- A line begins with the same brace, or with none, with and without its comments. -/
theorem Clear.leadingRule?_blankOut (clear : Clear inside line) :
    leadingRule? (Comment.blankOut inside line) = leadingRule? line := by
  cases begins : Comment.insideAt inside line (Line.indentation line) with
  | true =>
      have free : ∀ c ∈ line, isBrace c ≠ true := fun c mem => clear.not_isBrace begins mem
      have shown : ∀ c ∈ Comment.blankOut inside line, isBrace c ≠ true :=
        fun c mem brace => free c ((clear.mem_blankOut_iff brace).mp mem) brace
      rw [leadingRule?_of_no_brace free, leadingRule?_of_no_brace shown]
  | false => rw [leadingRule?, leadingRule?, head?_body_blankOut begins]

end Clear

end LinkerScriptEditor.Indent
