import LinkerScriptEditor.Proofs.Classification.Precedence
import LinkerScriptEditor.Proofs.Pattern.Words

/-!
# Reserved words

Keywords and functions are found as the words of a line that are listed, and addresses as the words
of a line that begin with `0x` and go on with decimal digits. What a reader should notice, a keyword
and a function share no word, so the rules of the table cannot take them from each other. Only an
address can be lost to an earlier rule, when a star with a list has it.
-/

namespace LinkerScriptEditor

open CharClass Pattern

theorem CharClass.isWord_of_isDigit {c : Char} (digit : c.isDigit = true) : isWord c = true := by
  have bounds := digit
  rw [Char.isDigit, Bool.and_eq_true, decide_eq_true_iff, decide_eq_true_iff] at bounds
  have ascii : isAscii c = true := by
    rw [isAscii, decide_eq_true_iff]
    exact Nat.lt_of_le_of_lt (UInt32.le_iff_toNat_le.mp bounds.2) (by decide)
  rw [isWord, isAlphanumeric, if_pos ascii, Char.isAlphanum, digit, Bool.or_true, Bool.or_true]

namespace PatternRule

variable {line : Line} {s : Span}

/-- Text of a listed word. -/
def IsOneOf (words : List String) (text : List Char) : Prop := ∃ word ∈ words, text = word.toList

instance (words : List String) : DecidablePred (IsOneOf words) :=
  fun text => inferInstanceAs (Decidable (∃ word ∈ words, text = word.toList))

theorem readsWords_wholeWord {words : List String}
    (spelled : ∀ word ∈ words, word.toList ≠ [] ∧ ∀ c ∈ word.toList, isWord c = true) :
    (wholeWord words).ReadsWords (IsOneOf words) := by
  have literals := reads_oneOf words fun word _ => reads_literal word.toList
  have boundary := reads_boundary isWord
  refine Reads.readsWords ?_ ((boundary.seq (literals.seq boundary)).congr
    fun line first last => ⟨?_, ?_⟩)
  · rintro _ ⟨word, mem, rfl⟩
    exact spelled word mem
  · rintro ⟨_, -, ⟨left, rfl⟩, _, -, ⟨word, mem, stands⟩, right, rfl⟩
    exact ⟨left, ⟨_, ⟨word, mem, rfl⟩, stands⟩, right⟩
  · rintro ⟨left, ⟨_, ⟨word, mem, rfl⟩, stands, rfl⟩, right⟩
    have inside := Line.add_length_le_of_prefix (spelled word mem).1 stands
    exact ⟨first, Nat.le_trans (Nat.le_add_right _ _) inside, ⟨left, rfl⟩, _, inside,
      ⟨word, mem, stands, rfl⟩, right, rfl⟩

/-- Text of an address: `0x` and decimal digits. -/
def IsAddress (text : List Char) : Prop :=
  ∃ digits, digits ≠ [] ∧ (∀ c ∈ digits, c.isDigit = true) ∧ text = '0' :: 'x' :: digits

theorem readsWords_hexAddress : hexAddress.pattern.ReadsWords IsAddress := by
  have boundary := reads_boundary isWord
  have opening := reads_literal "0x".toList
  have digits := reads_plus_one Char.isDigit
  refine Reads.readsWords ?_ ((boundary.seq (opening.seq (digits.seq boundary))).congr
    fun line first last => ⟨?_, ?_⟩)
  · rintro _ ⟨digits, -, all, rfl⟩
    refine ⟨List.cons_ne_nil _ _, List.forall_mem_cons.mpr ⟨by decide,
      List.forall_mem_cons.mpr ⟨by decide, ?_⟩⟩⟩
    exact fun c mem => isWord_of_isDigit (all c mem)
  · rintro ⟨_, -, ⟨left, rfl⟩, _, -, ⟨stands, rfl⟩, _, inside, ⟨lt, stretch⟩, right, rfl⟩
    obtain ⟨digits, all, behind, rfl⟩ := (Line.stretch_iff_prefix inside).mp stretch
    have some : digits ≠ [] := by
      rintro rfl
      exact absurd lt (Nat.lt_irrefl _)
    exact ⟨left, ⟨"0x".toList ++ digits, ⟨digits, some, all, rfl⟩,
      Line.append_prefix_drop_iff.mpr ⟨stands, behind⟩, by rw [List.length_append, Nat.add_assoc]⟩,
      right⟩
  · rintro ⟨left, ⟨_, ⟨digits, some, all, rfl⟩, stands, rfl⟩, right⟩
    have inside := Line.add_length_le_of_prefix (List.cons_ne_nil _ _) stands
    obtain ⟨opens, behind⟩ := (@Line.append_prefix_drop_iff line "0x".toList first digits).mp stands
    have pos : 0 < digits.length := List.length_pos_iff.mpr some
    have middle : first + 2 + digits.length = first + ('0' :: 'x' :: digits).length := by
      rw [List.length_cons, List.length_cons]
      omega
    have stretch := middle ▸ Line.stretch_of_prefix behind all
    exact ⟨first, by omega, ⟨left, rfl⟩, first + 2, by omega, ⟨opens, rfl⟩, _, inside,
      ⟨by omega, stretch⟩, right, rfl⟩

section Bounded

/-- A boundary that is asked for on one side only. -/
theorem reads_boundary_if (wanted : Bool) :
    (if wanted then wordBoundary else .empty).Reads fun line first last =>
      (wanted = true → Line.hasBefore isWord line first ≠ Line.has isWord line first) ∧
        last = first := by
  cases wanted with
  | false => exact reads_empty.congr fun _ _ _ => by simp
  | true => exact (reads_boundary isWord).congr fun _ _ _ => by simp

theorem reads_bounded {token : List Char} (some : token ≠ []) :
    (bounded token).Reads fun line first last =>
      Line.Gap line first ∧ (token <+: line.drop first ∧ last = first + token.length) ∧
        Line.Gap line last := by
  refine ((reads_boundary_if _).seq ((reads_literal token).seq (reads_boundary_if _))).congr
    fun line first last => ⟨?_, ?_⟩
  · rintro ⟨_, -, ⟨left, rfl⟩, _, -, ⟨stands, rfl⟩, right, rfl⟩
    rw [Line.head?_any_of_prefix some stands] at left
    rw [Line.getLast?_any_of_prefix some stands] at right
    exact ⟨Line.gap_iff_of_has.mpr left, ⟨stands, rfl⟩, Line.gap_iff_of_hasBefore.mpr right⟩
  · rintro ⟨left, ⟨stands, rfl⟩, right⟩
    have inside := Line.add_length_le_of_prefix some stands
    rw [Line.head?_any_of_prefix some stands, Line.getLast?_any_of_prefix some stands]
    exact ⟨first, by omega, ⟨Line.gap_iff_of_has.mp left, rfl⟩, _, inside, ⟨stands, rfl⟩,
      Line.gap_iff_of_hasBefore.mp right, rfl⟩

/-- A word that shares a column with a bounded token around one word is that word. -/
theorem text_of_overlaps_bounded {front word back : List Char}
    (inside : ∀ c ∈ word, isWord c = true) (outside : ∀ c ∈ front ++ back, isWord c = false)
    (run : Line.IsWord line s) {first last : Nat} (left : Line.Gap line first)
    (right : Line.Gap line last)
    (stands : front ++ word ++ back <+: line.drop first)
    (ends : last = first + (front ++ word ++ back).length)
    (overlaps : s.overlaps ⟨first, last⟩ = true) :
    Line.text line s = word := by
  -- the word lies in the token, and as it has word characters only, in their part of it
  have shared : s.start < last ∧ first < s.stop := Span.overlaps_iff.mp overlaps
  have after := (run.le_or_le_of_gap left).resolve_right (Nat.not_le.mpr shared.2)
  have before := (run.le_or_le_of_gap right).resolve_left (Nat.not_le.mpr shared.1)
  have lt := run.some
  have opens := run.stretch.has s.start (Nat.le_refl _) lt
  have closes := run.stretch.has (s.stop - 1) (by omega) (by omega)
  obtain ⟨begins, behind⟩ := Line.append_prefix_drop_iff.mp stands
  obtain ⟨ahead, center⟩ := Line.append_prefix_drop_iff.mp begins
  obtain ⟨noneAhead, noneBehind⟩ := List.forall_mem_append.mp outside
  rw [List.length_append, List.length_append] at ends
  rw [List.length_append] at behind
  have start_le : first + front.length ≤ s.start := by
    refine Nat.le_of_not_lt fun inFront => ?_
    rw [Line.has_of_prefix_of_forall ahead noneAhead after inFront] at opens
    cases opens
  have le_stop : s.stop ≤ first + front.length + word.length := by
    refine Nat.le_of_not_lt fun inBack => ?_
    rw [Line.has_of_prefix_of_forall behind noneBehind (by omega) (by omega)] at closes
    cases closes
  rw [run.eq_of_within (Line.stretch_of_prefix center inside) start_le le_stop]
  exact Line.text_of_prefix center

end Bounded

section Sparing

variable {rule : PatternRule} {wanted own : List Char → Prop}

/-- No match of a rule meets a word of a line whose text is wanted. -/
def Spares (rule : PatternRule) (wanted : List Char → Prop) : Prop :=
  ∀ line s, Line.IsWord line s → wanted (Line.text line s) →
    ∀ m ∈ rule.pattern.findAll line, s.overlaps m.region = false

theorem spares_of_readsWords (reads : rule.pattern.ReadsWords own)
    (apart : ∀ text, wanted text → ¬own text) : rule.Spares wanted := by
  intro line s run text m mem
  obtain ⟨other, another, found, rfl⟩ := reads.mem_findAll_iff.mp mem
  refine Bool.eq_false_iff.mpr fun overlaps => ?_
  cases run.eq_of_overlaps another overlaps
  exact apart _ text found

/-- The characters of a token that belong to words. -/
def wordOf (token : String) : List Char := token.toList.filter isWord

/-- What a reader should notice has its word characters together. -/
theorem exists_split_of_mem_warnings {token : String} (mem : token ∈ Lexicon.warnings) :
    ∃ front back, token.toList = front ++ wordOf token ++ back ∧
      ∀ c ∈ front ++ back, isWord c = false := by
  have split : Lexicon.warnings.all (fun token =>
      let front := token.toList.takeWhile fun c => !isWord c
      let back := token.toList.drop (front.length + (wordOf token).length)
      token.toList == front ++ wordOf token ++ back && (front ++ back).all fun c => !isWord c) =
        true := by decide +kernel
  have own := List.all_eq_true.mp split token mem
  simp only [Bool.and_eq_true, beq_iff_eq, List.all_eq_true, Bool.not_eq_true'] at own
  exact ⟨_, _, own⟩

theorem spares_warning (apart : ∀ token ∈ Lexicon.warnings, ¬wanted (wordOf token)) :
    warning.Spares wanted := by
  intro line s run text m mem
  refine Bool.eq_false_iff.mpr fun overlaps => ?_
  have some : ∀ token ∈ Lexicon.warnings, token.toList ≠ [] := by decide
  have tokens := reads_oneOf Lexicon.warnings fun token mem => reads_bounded (some token mem)
  obtain ⟨first, r, le, found, rfl⟩ := exists_run_of_mem_findAll mem
  obtain ⟨last, -, ⟨token, listed, left, ⟨stands, ends⟩, right⟩, rfl⟩ :=
    (tokens line first [] r le).mp found
  obtain ⟨front, back, split, outside⟩ := exists_split_of_mem_warnings listed
  rw [split] at stands ends
  have inside : ∀ c ∈ wordOf token, isWord c = true := fun c mem => List.of_mem_filter mem
  have same := text_of_overlaps_bounded inside outside run left right stands ends overlaps
  exact apart token listed (same ▸ text)

theorem spelled_of_mem {word : String} (mem : word ∈ Lexicon.keywords ++ Lexicon.builtins) :
    word.toList ≠ [] ∧ ∀ c ∈ word.toList, isWord c = true := by
  have spelled : (Lexicon.keywords ++ Lexicon.builtins).all (fun word =>
      !word.toList.isEmpty && word.toList.all isWord) = true := by decide +kernel
  simpa using List.all_eq_true.mp spelled word mem

theorem readsWords_keyword : keyword.pattern.ReadsWords (IsOneOf Lexicon.keywords) :=
  readsWords_wholeWord fun _ mem => spelled_of_mem (List.mem_append_left _ mem)

theorem readsWords_builtin : builtin.pattern.ReadsWords (IsOneOf Lexicon.builtins) :=
  readsWords_wholeWord fun _ mem => spelled_of_mem (List.mem_append_right _ mem)

theorem warning_spares_keyword : warning.Spares (IsOneOf Lexicon.keywords) :=
  spares_warning (by decide +kernel)

theorem warning_spares_builtin : warning.Spares (IsOneOf Lexicon.builtins) :=
  spares_warning (by decide +kernel)

theorem keyword_spares_builtin : keyword.Spares (IsOneOf Lexicon.builtins) := by
  have apart : ∀ word ∈ Lexicon.builtins, ¬IsOneOf Lexicon.keywords word.toList := by
    decide +kernel
  refine spares_of_readsWords readsWords_keyword ?_
  rintro _ ⟨word, mem, rfl⟩
  exact apart word mem

theorem warning_spares_address : warning.Spares IsAddress := by
  have opening : ∀ token ∈ Lexicon.warnings, (wordOf token).head? ≠ some '0' := by decide +kernel
  refine spares_warning ?_
  rintro token mem ⟨digits, -, -, same⟩
  exact opening token mem (congrArg List.head? same)

/-- No reserved word begins as an address does. -/
theorem spares_address_of_reserved {words : List String}
    (reads : rule.pattern.ReadsWords (IsOneOf words))
    (reserved : words ⊆ Lexicon.keywords ++ Lexicon.builtins) : rule.Spares IsAddress := by
  have opening : ∀ word ∈ Lexicon.keywords ++ Lexicon.builtins, word.toList.head? ≠ some '0' := by
    decide +kernel
  refine spares_of_readsWords reads ?_
  rintro _ ⟨digits, -, -, rfl⟩ ⟨word, mem, same⟩
  exact opening word (reserved mem) (congrArg List.head? same).symm

end Sparing

/-- A word of a line that shares a column with a star and its list lies in between. -/
theorem overlaps_wildcardSection_iff {m : Match} (run : Line.IsWord line s)
    (mem : m ∈ wildcardSection.pattern.findAll line) :
    s.overlaps m.region = true ↔ m.region.start ≤ s.start ∧ s.stop ≤ m.region.stop := by
  obtain ⟨first, last, le, rfl, star, -, closing⟩ :=
    Classification.exists_of_mem_findAll_wildcardSection mem
  have opens : Line.Gap line first := fun _ => Line.has_of_has_beq star
  have closes : Line.Gap line (last + 1) := by
    intro before
    rw [Line.hasBefore, Line.has_of_has_beq closing] at before
    cases before
  have some := run.some
  rw [Span.overlaps_iff]
  constructor
  · rintro ⟨before, after⟩
    exact ⟨(run.le_or_le_of_gap opens).resolve_right (Nat.not_le.mpr after),
      (run.le_or_le_of_gap closes).resolve_left (Nat.not_le.mpr before)⟩
  · rintro ⟨after, before⟩
    exact ⟨Nat.lt_of_lt_of_le some before, Nat.lt_of_le_of_lt after some⟩

end PatternRule

namespace Classification

open PatternRule

variable {line : Line} {s : Span} {rule : PatternRule} {category : Category}
  {wanted : List Char → Prop}

/-- A category that goes to whole words goes to those that no earlier rule has taken. -/
theorem mem_ofLine_iff_of_readsWords (earlier later : List PatternRule)
    (reads : rule.pattern.ReadsWords wanted) (groups : rule.groups = [(0, category)])
    (alone : ∀ other ∈ earlier ++ later, category ∉ other.groups.map Prod.snd) :
    ⟨s, category⟩ ∈ ofLine (earlier ++ rule :: later) line ↔
      (Line.IsWord line s ∧ wanted (Line.text line s)) ∧
        ∀ region ∈ takenBy line [] earlier, s.overlaps region = false := by
  rw [mem_ofLine_iff_of_category alone]
  simp only [mem_unclaimed_iff, reads.mem_findAll_iff, mem_groupSpans_iff, groups]
  constructor
  · rintro ⟨_, ⟨⟨other, run, text, rfl⟩, -, clear⟩, number, listed, found, -⟩
    cases List.mem_singleton.mp listed
    cases found
    exact ⟨⟨run, text⟩, clear⟩
  · rintro ⟨⟨run, text⟩, clear⟩
    exact ⟨⟨s, []⟩, ⟨⟨s, run, text, rfl⟩, run.some, clear⟩, 0, List.mem_singleton_self _, rfl,
      run.some⟩

theorem clear_takenBy_of_spares {rules : List PatternRule}
    (spares : ∀ rule ∈ rules, rule.Spares wanted) (run : Line.IsWord line s)
    (text : wanted (Line.text line s)) :
    ∀ region ∈ takenBy line [] rules, s.overlaps region = false := by
  intro region mem
  rcases exists_of_mem_takenBy mem with before | ⟨rule, listed, m, found, rfl⟩
  · cases before
  · exact spares rule listed line s run text m found

theorem mem_ofLine_iff_of_spares (earlier later : List PatternRule)
    (reads : rule.pattern.ReadsWords wanted) (groups : rule.groups = [(0, category)])
    (alone : ∀ other ∈ earlier ++ later, category ∉ other.groups.map Prod.snd)
    (spares : ∀ rule ∈ earlier, rule.Spares wanted) :
    ⟨s, category⟩ ∈ ofLine (earlier ++ rule :: later) line ↔
      Line.IsWord line s ∧ wanted (Line.text line s) := by
  rw [mem_ofLine_iff_of_readsWords earlier later reads groups alone]
  exact and_iff_left_of_imp fun ⟨run, text⟩ => clear_takenBy_of_spares spares run text

/-- The stars with lists that claim their regions. -/
def claimedLists (line : Line) : List Match :=
  unclaimed line (takenBy line [] [warning, keyword, builtin]) wildcardSection

theorem mem_ofLine_hexAddress_iff :
    ⟨s, .hexAddress⟩ ∈ ofLine table line ↔ Line.IsWord line s ∧ IsAddress (Line.text line s) ∧
      ∀ m ∈ claimedLists line, ¬(m.region.start ≤ s.start ∧ s.stop ≤ m.region.stop) := by
  have spares : ∀ rule ∈ [warning, keyword, builtin], rule.Spares IsAddress :=
    List.forall_mem_cons.mpr ⟨warning_spares_address, List.forall_mem_cons.mpr
      ⟨spares_address_of_reserved readsWords_keyword (List.subset_append_left _ _),
        List.forall_mem_singleton.mpr
          (spares_address_of_reserved readsWords_builtin (List.subset_append_right _ _))⟩⟩
  refine (mem_ofLine_iff_of_readsWords [warning, keyword, builtin, wildcardSection] [sectionName]
    readsWords_hexAddress rfl (by decide)).trans ?_
  rw [and_assoc]
  refine and_congr_right fun run => and_congr_right fun text => ?_
  have clear := clear_takenBy_of_spares spares run text
  have taken : takenBy line [] [warning, keyword, builtin, wildcardSection] =
      takenBy line [] [warning, keyword, builtin] ++ (claimedLists line).map Match.region :=
    takenBy_concat [warning, keyword, builtin] wildcardSection
  rw [taken, List.forall_mem_append, List.forall_mem_map, and_iff_right clear]
  refine forall₂_congr fun m mem => ?_
  rw [← overlaps_wildcardSection_iff run (mem_unclaimed_iff.mp mem).1, Bool.not_eq_true]

/-- The keywords and functions of every line are the words of the line that are listed, and no
earlier rule has a match that meets such a word. The addresses are the words that read as one, apart
from those that lie in the region of a star with a list. No word is found twice. -/
theorem reserved_words_of_line :
    warning.Spares (IsOneOf Lexicon.keywords) ∧
    (∀ rule ∈ [warning, keyword], rule.Spares (IsOneOf Lexicon.builtins)) ∧
    ∀ line, (ofLine table line).Nodup ∧ ∀ s : Span,
      (⟨s, .keyword⟩ ∈ ofLine table line ↔
        Line.IsWord line s ∧ IsOneOf Lexicon.keywords (Line.text line s)) ∧
      (⟨s, .builtin⟩ ∈ ofLine table line ↔
        Line.IsWord line s ∧ IsOneOf Lexicon.builtins (Line.text line s)) ∧
      (⟨s, .hexAddress⟩ ∈ ofLine table line ↔
        Line.IsWord line s ∧ IsAddress (Line.text line s) ∧
          ∀ m ∈ claimedLists line, ¬(m.region.start ≤ s.start ∧ s.stop ≤ m.region.stop)) := by
  have spares : ∀ rule ∈ [warning, keyword], rule.Spares (IsOneOf Lexicon.builtins) :=
    List.forall_mem_cons.mpr
      ⟨warning_spares_builtin, List.forall_mem_singleton.mpr keyword_spares_builtin⟩
  refine ⟨warning_spares_keyword, spares, fun line => ⟨?_, fun s => ⟨?_, ?_, ?_⟩⟩⟩
  · refine (strict_ofLine (fun _ => separates_of_mem_table) line).imp ?_
    rintro a _ lt rfl
    exact Nat.lt_irrefl _ lt
  · exact mem_ofLine_iff_of_spares [warning] [builtin, wildcardSection, hexAddress, sectionName]
      readsWords_keyword rfl (by decide) (List.forall_mem_singleton.mpr warning_spares_keyword)
  · exact mem_ofLine_iff_of_spares [warning, keyword] [wildcardSection, hexAddress, sectionName]
      readsWords_builtin rfl (by decide) spares
  · exact mem_ofLine_hexAddress_iff

/-- A keyword, an address that a list behind a star has, one that is free, and a function; the token
in front takes none of them. -/
theorem reserved_words_of_kept_list :
    let line := "/DISCARD/ KEEP(*(.a 0x1)) 0x2 ADDR".toList
    (⟨⟨10, 14⟩, .keyword⟩ ∈ ofLine table line ∧ ⟨⟨30, 34⟩, .builtin⟩ ∈ ofLine table line) ∧
      ⟨⟨20, 23⟩, .hexAddress⟩ ∉ ofLine table line ∧
      ⟨⟨26, 29⟩, .hexAddress⟩ ∈ ofLine table line := by
  intro line
  have words := (reserved_words_of_line.2.2 line).2
  have lists : (∃ m ∈ claimedLists line, m.region.start ≤ 20 ∧ 23 ≤ m.region.stop) ∧
      ∀ m ∈ claimedLists line, ¬(m.region.start ≤ 26 ∧ 29 ≤ m.region.stop) := by decide +kernel
  refine ⟨⟨(words _).1.mpr ?_, (words _).2.1.mpr ?_⟩, fun found => ?_, (words _).2.2.mpr ?_⟩
  · decide +kernel
  · decide +kernel
  · obtain ⟨m, mem, inside⟩ := lists.1
    exact ((words _).2.2.mp found).2.2 m mem inside
  · have address : IsAddress (Line.text line ⟨26, 29⟩) :=
      ⟨['2'], List.cons_ne_nil _ _, List.forall_mem_singleton.mpr rfl, by decide +kernel⟩
    exact ⟨by decide +kernel, address, lists.2⟩

end Classification

end LinkerScriptEditor
