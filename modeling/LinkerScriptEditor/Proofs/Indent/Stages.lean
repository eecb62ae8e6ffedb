import LinkerScriptEditor.Proofs.Indent.Noninterference

/-!
# Passes in stages

A pass may stop at any row, and a second one may go on from there with a document and a tracker of
its own. Together they come to what one pass over both ranges comes to, or are refused for the same
reason. Bounds may be negative or past the last row.
-/

namespace LinkerScriptEditor.Indent

variable {first middle : Int} {stop : Option Int}

/-- The rows up to a bound and the rows from it on are all rows. -/
theorem rowsBetween_append (count : Nat) (lower : first ≤ middle)
    (upper : ∀ last ∈ stop, middle ≤ last) :
    rowsBetween count first (some middle) ++ rowsBetween count middle stop =
      rowsBetween count first stop := by
  obtain ⟨last, all, below, within, reached⟩ : ∃ last,
      rowsBetween count first stop = List.range' first.toNat (last - first.toNat) ∧
        rowsBetween count middle stop = List.range' middle.toNat (last - middle.toNat) ∧
        last ≤ count ∧ min middle.toNat count ≤ last := by
    cases stop with
    | none => exact ⟨count, rfl, rfl, Nat.le_refl count, Nat.min_le_right _ _⟩
    | some last =>
        have order := upper last rfl
        exact ⟨min last.toNat count, rfl, rfl, Nat.min_le_right _ _, by omega⟩
  have above : rowsBetween count first (some middle) =
      List.range' first.toNat (min middle.toNat count - first.toNat) := rfl
  rw [all, below, above]
  rcases Nat.le_total middle.toNat last with inside | past
  · have front : first.toNat + (middle.toNat - first.toNat) = middle.toNat := by omega
    have sizes : last - first.toNat =
        (middle.toNat - first.toNat) + (last - middle.toNat) := by omega
    rw [Nat.min_eq_left (Nat.le_trans inside within), sizes, ← List.range'_append_1, front]
  · have none : last - middle.toNat = 0 := by omega
    have same : min middle.toNat count = last := by omega
    rw [none, same, List.range'_zero, List.append_nil]

/-- A pass in two stages, the second over what the first has left, comes out as one pass over all of
the rows. -/
theorem reindentAsked_stages (style : Datum) (unit : Int) (lines : List Line)
    (lower : first ≤ middle) (upper : ∀ last ∈ stop, middle ≤ last) :
    (reindentAsked style unit lines first (some middle)).bind
        (fun half => reindentAsked style unit half middle stop) =
      reindentAsked style unit lines first stop := by
  have bounds := bounds_rowsBetween lines first (some middle)
  rw [reindentAsked_eq_foldlM, reindentAsked_eq_foldlM, ← rowsBetween_append _ lower upper,
    List.foldlM_append]
  cases run : (rowsBetween (Document.atLeastOne lines).length first (some middle)).foldlM
      (settleAfresh style unit) (Document.atLeastOne lines) with
  | error fault => rfl
  | ok half =>
      have kept := kept_of_foldlM bounds run
      change reindentAsked style unit half middle stop = _
      rw [reindentAsked_eq_foldlM, kept.atLeastOne, kept.length]
      rfl

/-- The second stage begins inside a comment and skips the closing brace in it. -/
theorem reindentAsked_stages_in_comment :
    let lines := ["a \x7b", "/* b", "\x7d c", "d */", "e"].map String.toList
    let stage := reindentAsked (.str "faithful") 2
    (-2 : Int) ≤ 2 ∧ (∀ last ∈ some 9, (2 : Int) ≤ last) ∧
      ((stage lines (-2) (some 2)).bind fun half => stage half 2 (some 9)).toOption =
        some (["a \x7b", "  /* b", "\x7d c", "  d */", "  e"].map String.toList) := by
  intro lines stage
  have lower : (-2 : Int) ≤ 2 := by decide
  have upper : ∀ last ∈ some 9, (2 : Int) ≤ last := by decide
  refine ⟨lower, upper, ?_⟩
  rw [reindentAsked_stages _ _ lines lower upper]
  decide +kernel

end LinkerScriptEditor.Indent
