import LinkerScriptEditor.Proofs.Document.Offset
import LinkerScriptEditor.StyledText

/-!
# The styles of a character

What a reader sees of a styled text is the styles of each character. Laying a style over a range
adds it to the characters of the range and leaves the others as they are, and lines that are joined
keep the styles of their characters, as long as no span goes over the ends of its line.
-/

namespace LinkerScriptEditor

def TextStyle.isCategory : TextStyle → Bool
  | category _ => true
  | comment => false
  | cursor => false

namespace StyledSpan

/-- Whether the span is laid over a character. -/
def covers (s : StyledSpan) (i : Nat) : Bool := s.start ≤ i && (i : Int) < s.stop

variable {s : StyledSpan} {i : Nat}

theorem covers_iff : s.covers i = true ↔ s.start ≤ i ∧ (i : Int) < s.stop := by
  rw [covers, Bool.and_eq_true, decide_eq_true_iff, decide_eq_true_iff]

theorem covers_shift (start : 0 ≤ s.start) (count : Nat) :
    (s.shift count).covers i = (decide (count ≤ i) && s.covers (i - count)) := by
  rw [Bool.eq_iff_iff, covers_iff, Bool.and_eq_true, covers_iff, decide_eq_true_iff]
  change s.start + count ≤ i ∧ (i : Int) < s.stop + count ↔ _
  omega

end StyledSpan

namespace StyledText

/-- The styles of a character, in the order in which they were laid. -/
def stylesAt (i : Nat) (t : StyledText) : List TextStyle :=
  (t.spans.filter (·.covers i)).map StyledSpan.style

/-- No span begins before the text or goes on behind it. -/
def Clipped (t : StyledText) : Prop :=
  ∀ s ∈ t.spans, 0 ≤ s.start ∧ s.stop ≤ t.plain.length

variable {t : StyledText} {style : TextStyle} {i : Nat}

theorem Clipped.stylesAt_of_le (clipped : t.Clipped) (past : t.plain.length ≤ i) :
    t.stylesAt i = [] := by
  have none : t.spans.filter (·.covers i) = [] := by
    refine List.filter_eq_nil_iff.mpr fun s mem covers => ?_
    have ends := (clipped s mem).2
    have before := (StyledSpan.covers_iff.mp covers).2
    omega
  rw [stylesAt, none, List.map_nil]

section Laying

/-- One span more adds its style to the characters that it covers. -/
theorem stylesAt_concat (shown : List Char) (s : StyledSpan) :
    stylesAt i ⟨shown, t.spans ++ [s]⟩ =
      t.stylesAt i ++ if s.covers i then [s.style] else [] := by
  rw [stylesAt, List.filter_append, List.map_append]
  cases covers : s.covers i <;> simp [stylesAt, covers]

theorem fromEnd_natCast (length bound : Nat) : fromEnd length bound = bound :=
  if_neg (Int.not_lt.mpr (Int.natCast_nonneg bound))

@[simp] theorem plain_stylize (start stop : Int) :
    (t.stylize style start stop).plain = t.plain := by
  rw [stylize]
  split <;> rfl

theorem stylesAt_stylize (start stop : Nat) :
    (t.stylize style start stop).stylesAt i =
      t.stylesAt i ++ if start ≤ i ∧ i < stop ∧ i < t.plain.length then [style] else [] := by
  rw [stylize, fromEnd_natCast, fromEnd_natCast]
  split
  · next nothing =>
      have outside : ¬(start ≤ i ∧ i < stop ∧ i < t.plain.length) := by omega
      rw [if_neg outside, List.append_nil]
  · have covers : StyledSpan.covers ⟨start, min t.plain.length stop, style⟩ i = true ↔
        start ≤ i ∧ i < stop ∧ i < t.plain.length := by
      rw [StyledSpan.covers_iff]
      dsimp only
      omega
    rw [stylesAt_concat]
    simp only [covers]

theorem Clipped.stylize (clipped : t.Clipped) (start stop : Nat) :
    (t.stylize style start stop).Clipped := by
  intro s mem
  rw [plain_stylize]
  rw [StyledText.stylize, fromEnd_natCast, fromEnd_natCast] at mem
  split at mem
  · exact clipped s mem
  · rcases List.mem_append.mp mem with old | new
    · exact clipped s old
    · rw [List.mem_singleton.mp new]
      exact ⟨Int.natCast_nonneg start, Int.min_le_left _ _⟩

theorem clipped_ofLine (line : Line) : (ofLine line).Clipped := nofun

variable {α : Type} (name : α → TextStyle) (range : α → Span)

/-- Ranges laid one after the other add their styles to the characters that they cover. -/
theorem stylize_all (items : List α) (t : StyledText) :
    let laid := items.foldl (fun t a => t.stylize (name a) (range a).start (range a).stop) t
    laid.plain = t.plain ∧ (t.Clipped → laid.Clipped) ∧
      ∀ i < t.plain.length,
        laid.stylesAt i = t.stylesAt i ++ (items.filter fun a => (range a).covers i).map name := by
  induction items generalizing t with
  | nil => exact ⟨rfl, id, fun i _ => (List.append_nil _).symm⟩
  | cons a rest ih =>
      obtain ⟨plain, clipped, styles⟩ :=
        ih (t.stylize (name a) (range a).start (range a).stop)
      rw [plain_stylize] at plain styles
      refine ⟨plain, fun inside => clipped (inside.stylize _ _), fun i bound => ?_⟩
      rw [List.foldl_cons, styles i bound, stylesAt_stylize, List.append_assoc, List.filter_cons]
      simp only [Span.covers, bound, and_true, Bool.and_eq_true, decide_eq_true_eq]
      split <;> rfl

end Laying

section Joining

theorem plain_join (ts : List StyledText) : (join ts).plain = joinLines (ts.map plain) := by
  fun_induction join ts with
  | case1 => rfl
  | case2 t => rfl
  | case3 t next rest tail ih =>
      change t.plain ++ '\n' :: (join (next :: rest)).plain = _
      rw [ih]
      rfl

theorem Clipped.join {ts : List StyledText} (clipped : ∀ t ∈ ts, t.Clipped) :
    (join ts).Clipped := by
  fun_induction StyledText.join ts with
  | case1 => nofun
  | case2 t => exact clipped t List.mem_cons_self
  | case3 t next rest tail ih =>
      have tails : tail.Clipped := ih fun u mem => clipped u (List.mem_cons_of_mem t mem)
      intro s mem
      rw [List.length_append, List.length_cons]
      rcases List.mem_append.mp mem with here | behind
      · have inside := clipped t List.mem_cons_self s here
        omega
      · obtain ⟨u, old, rfl⟩ := List.mem_map.mp behind
        have inside := tails u old
        simp only [StyledSpan.shift]
        omega

theorem stylesAt_shift {spans : List StyledSpan} (starts : ∀ s ∈ spans, 0 ≤ s.start)
    (count : Nat) :
    ((spans.map (.shift count)).filter (·.covers i)).map StyledSpan.style =
      if i < count then [] else (spans.filter (·.covers (i - count))).map StyledSpan.style := by
  have same : ∀ s ∈ spans, ((·.covers i) ∘ StyledSpan.shift count) s =
      (decide (count ≤ i) && s.covers (i - count)) :=
    fun s mem => StyledSpan.covers_shift (starts s mem) count
  rw [List.filter_map, List.map_map, List.filter_congr same]
  split
  · next before =>
      rw [decide_eq_false (Nat.not_le_of_lt before)]
      simp
  · next past =>
      rw [decide_eq_true (Nat.le_of_not_lt past)]
      rfl

/-- A character of joined lines has the styles that it has in its own line, and a line feed between
them has none. -/
theorem stylesAt_join_cons {next : StyledText} {rest : List StyledText}
    (clipped : ∀ u ∈ t :: next :: rest, u.Clipped) :
    (join (t :: next :: rest)).stylesAt i =
      if i ≤ t.plain.length then t.stylesAt i
      else (join (next :: rest)).stylesAt (i - (t.plain.length + 1)) := by
  have tails : (join (next :: rest)).Clipped :=
    .join fun u mem => clipped u (List.mem_cons_of_mem t mem)
  have shifted := stylesAt_shift (i := i) (fun s mem => (tails s mem).1) (t.plain.length + 1)
  have joined : (join (t :: next :: rest)).stylesAt i = t.stylesAt i ++
      (((join (next :: rest)).spans.map (.shift (t.plain.length + 1))).filter
        (·.covers i)).map StyledSpan.style := by
    rw [stylesAt, join, List.filter_append, List.map_append]
    rfl
  rw [joined, shifted]
  by_cases here : i ≤ t.plain.length
  · rw [if_pos here, if_pos (Nat.lt_succ_of_le here), List.append_nil]
  · have past : t.plain.length ≤ i := Nat.le_of_not_le here
    rw [if_neg here, if_neg (by omega), (clipped t List.mem_cons_self).stylesAt_of_le past]
    rfl

/-- What holds of no styles and of those of each character of each line holds of those of each
character of the joined lines. -/
theorem stylesAt_join_induction {holds : List TextStyle → Prop} (none : holds [])
    {ts : List StyledText} (clipped : ∀ t ∈ ts, t.Clipped)
    (each : ∀ t ∈ ts, ∀ i, holds (t.stylesAt i)) (i : Nat) : holds ((join ts).stylesAt i) := by
  induction ts generalizing i with
  | nil => exact none
  | cons t rest ih =>
      cases rest with
      | nil => exact each t List.mem_cons_self i
      | cons next others =>
          rw [stylesAt_join_cons clipped]
          split
          · exact each t List.mem_cons_self i
          · exact ih (fun u mem => clipped u (List.mem_cons_of_mem t mem))
              (fun u mem => each u (List.mem_cons_of_mem t mem)) _

/-- The styles at a place of the joined lines are those at its column of its line. -/
theorem stylesAt_join {ts : List StyledText} (clipped : ∀ t ∈ ts, t.Clipped) {row column : Nat}
    (bound : row < ts.length) (width : column ≤ ts[row].plain.length) :
    (join ts).stylesAt (offset (ts.map plain) ⟨row, column⟩) = ts[row].stylesAt column := by
  induction ts generalizing row with
  | nil => cases bound
  | cons t rest ih =>
      cases rest with
      | nil =>
          obtain rfl : row = 0 := Nat.lt_one_iff.mp bound
          rw [List.map_singleton, offset_zero _ width]
          rfl
      | cons next others =>
          rw [stylesAt_join_cons clipped]
          cases row with
          | zero =>
              rw [List.map_cons, offset_zero _ width]
              exact if_pos width
          | succ row =>
              have inner := ih (fun u mem => clipped u (List.mem_cons_of_mem t mem))
                (Nat.lt_of_succ_lt_succ bound) width
              rw [List.map_cons, offset_succ, if_neg (by omega), Nat.add_sub_cancel_left, inner]
              rfl

end Joining

section Cursor

/-- The text with all styles but that of the cursor. -/
def withoutCursor (t : StyledText) : StyledText :=
  { t with spans := t.spans.filter (·.style != .cursor) }

theorem stylesAt_withoutCursor :
    t.withoutCursor.stylesAt i = (t.stylesAt i).filter (· != .cursor) := by
  rw [stylesAt, stylesAt, withoutCursor, List.filter_map, List.filter_filter, List.filter_filter]
  exact congrArg _ (List.filter_congr fun s _ => Bool.and_comm _ _)

theorem withoutCursor_stylize (start stop : Int) :
    (t.stylize .cursor start stop).withoutCursor = t.withoutCursor := by
  rw [stylize]
  split
  · rfl
  · simp [withoutCursor]

theorem withoutCursor_join (ts : List StyledText) :
    (join ts).withoutCursor = join (ts.map withoutCursor) := by
  fun_induction join ts with
  | case1 => rfl
  | case2 t => rfl
  | case3 t next rest tail ih =>
      rw [List.map_cons, List.map_cons, join, ← List.map_cons, ← ih]
      simp only [withoutCursor, List.filter_append, List.filter_map]
      rfl

end Cursor

end StyledText

end LinkerScriptEditor
