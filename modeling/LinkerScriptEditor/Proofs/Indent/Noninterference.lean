import LinkerScriptEditor.Proofs.Indent.Afresh

/-!
# Former margins

What a pass writes into its rows does not hang on the margins that it finds there, nor on the rows
below them. So two lists that differ only in these come out alike, and a second pass over the lines
that a pass has settled leaves them as they are.
-/

namespace LinkerScriptEditor.Indent

variable {style : Datum} {unit : Int} {a b lines result : List Line} {row first count : Nat}

/-- The rows that a pass is asked to settle, whether they exist or not. -/
def InRange (start : Int) (stop : Option Int) (row : Nat) : Prop :=
  start ≤ row ∧ ∀ last ∈ stop, (row : Int) < last

/-- Lists that are alike at a row have the same line come out there. -/
theorem Alike.lineAfresh_eq (alike : Alike row a b) (boundA : row < a.length)
    (boundB : row < b.length) : lineAfresh style unit a row = lineAfresh style unit b row := by
  have decisions : decisionAfresh style unit a row = decisionAfresh style unit b row := by
    rw [decisionAfresh_eq style unit boundA, decisionAfresh_eq style unit boundB,
      funext fun s => alike.decideRow_eq s unit]
  rw [lineAfresh, lineAfresh, alike.own, decisions]

/-- Both runs fail with one fault, or both end with results that are related. -/
def Together (related : List Line → List Line → Prop) :
    Except Fault (List Line) → Except Fault (List Line) → Prop
  | .error f, .error g => f = g
  | .ok ra, .ok rb => related ra rb
  | _, _ => False

theorem Together.mono {related wanted : List Line → List Line → Prop}
    {x y : Except Fault (List Line)} (together : Together related x y)
    (enough : ∀ ra rb, x = .ok ra → y = .ok rb → related ra rb → wanted ra rb) :
    Together wanted x y := by
  cases x <;> cases y
  · exact together
  · exact together
  · exact together
  · exact enough _ _ rfl rfl together

/-- Row by row two passes fail together, or agree on one more row. -/
theorem together_foldlM_settleAfresh (style : Datum) (unit : Int) (length : a.length = b.length)
    (bounds : ∀ r ∈ List.range' first count, r < a.length)
    (above : ∀ r < first, a.getD r [] = b.getD r [])
    (bodies : ∀ r ∈ List.range' first count,
      Line.body (a.getD r []) = Line.body (b.getD r [])) :
    Together (fun ra rb => ∀ r < first + count, ra.getD r [] = rb.getD r [])
      ((List.range' first count).foldlM (settleAfresh style unit) a)
      ((List.range' first count).foldlM (settleAfresh style unit) b) := by
  -- on the rows still to be settled; the rows above have the same lines in both runs by then
  induction count generalizing first a b with
  | zero => exact above
  | succ count ih =>
      rw [List.range'_succ] at bounds bodies ⊢
      have boundA := bounds first List.mem_cons_self
      have boundB : first < b.length := length ▸ boundA
      have same : lineAfresh style unit a first = lineAfresh style unit b first :=
        Alike.lineAfresh_eq ⟨above, bodies first List.mem_cons_self⟩ boundA boundB
      rw [List.foldlM_cons, List.foldlM_cons, settleAfresh, settleAfresh, same]
      cases lineAfresh style unit b first with
      | error fault => exact rfl
      | ok line =>
          have next : first + (count + 1) = first + 1 + count := by omega
          rw [next]
          apply ih
          · rw [List.length_set, List.length_set, length]
          · exact bounds_set bounds
          · intro r lt
            by_cases here : r = first
            · rw [here, getD_set_self line boundA, getD_set_self line boundB]
            · rw [getD_set_of_ne line (Ne.symm here), getD_set_of_ne line (Ne.symm here)]
              exact above r (by omega)
          · intro r later
            have ne : first ≠ r := by
              have := (List.mem_range'_1.mp later).1
              omega
            rw [getD_set_of_ne line ne, getD_set_of_ne line ne]
            exact bodies r (List.mem_cons_of_mem first later)

theorem kept_of_foldlM {rows : List Nat} (bounds : ∀ r ∈ rows, r < lines.length)
    (run : rows.foldlM (settleAfresh style unit) lines = .ok result) :
    Kept rows lines result := by
  rw [eq_foldl_of_foldlM_settleAfresh bounds run]
  exact kept_foldl_settleRow _ unit rows lines

theorem ext_getD (length : a.length = b.length) (same : ∀ row, a.getD row [] = b.getD row []) :
    a = b := by
  apply List.ext_getElem length
  intro row boundA boundB
  rw [← List.getD_eq_getElem a [] boundA, ← List.getD_eq_getElem b [] boundB, same]

/-- A pass over settled lines changes nothing. -/
theorem Kept.foldlM_settleAfresh {rows : List Nat} (kept : Kept rows lines result)
    (range : rows = List.range' first count) (bounds : ∀ r ∈ rows, r < lines.length)
    (run : rows.foldlM (settleAfresh style unit) lines = .ok result) :
    rows.foldlM (settleAfresh style unit) result = .ok result := by
  subst range
  have together := together_foldlM_settleAfresh style unit kept.length.symm bounds
    kept.alike.above fun r _ => (kept.getD_body r).symm
  rw [run] at together
  cases again : (List.range' first count).foldlM (settleAfresh style unit) result with
  | error fault =>
      rw [again] at together
      cases together
  | ok settled =>
      rw [again] at together
      have keptAgain := kept_of_foldlM (fun r mem => kept.length ▸ bounds r mem) again
      have same : settled = result := by
        apply ext_getD keptAgain.length
        intro r
        by_cases mem : r ∈ List.range' first count
        · exact (together r (List.mem_range'_1.mp mem).2).symm
        · exact keptAgain.outside r mem
      rw [same]

/-- A pass over its own result changes nothing. -/
theorem reindentAsked_again {start : Int} {stop : Option Int}
    (run : reindentAsked style unit lines start stop = .ok result) :
    reindentAsked style unit result start stop = .ok result := by
  have bounds := bounds_rowsBetween lines start stop
  rw [reindentAsked_eq_foldlM] at run
  have kept := kept_of_foldlM bounds run
  rw [reindentAsked_eq_foldlM, kept.atLeastOne, kept.length]
  exact kept.foldlM_settleAfresh rfl bounds run

theorem reindentAsked_name (style : Style) (unit : Int) (lines : List Line) (start : Int)
    (stop : Option Int) :
    reindentAsked (.str style.name) unit lines start stop =
      reindentBounded style unit lines start stop := by
  have known : Style.ofDatum (.str style.name) = .ok style := by cases style <;> rfl
  rw [reindentAsked, known]

section Bounded

variable {style : Style} {start : Int} {stop : Option Int}
  (run : reindentBounded style unit lines start stop = .ok result)
include run

theorem reindentBounded_again : reindentBounded style unit result start stop = .ok result := by
  rw [← reindentAsked_name] at run ⊢
  exact reindentAsked_again run

theorem kept_of_reindentBounded :
    Kept (rowsBetween (Document.atLeastOne lines).length start stop) (Document.atLeastOne lines)
      result := by
  rw [← reindentAsked_name, reindentAsked_eq_foldlM] at run
  exact kept_of_foldlM (bounds_rowsBetween lines start stop) run

end Bounded

/-- Lists that agree above the rows of a pass, and in these rows up to leading blanks, have the
same lines come out there, whatever stands below. A pass over its own result changes nothing. -/
theorem reindentAsked_ignores_margins (style : Datum) (unit start : Int) (stop : Option Int) :
    (∀ a b : List Line, a.length = b.length →
      (∀ row : Nat, row < max start 0 → a.getD row [] = b.getD row []) →
      (∀ row : Nat, InRange start stop row →
        Line.body (a.getD row []) = Line.body (b.getD row [])) →
      Together
        (fun ra rb => ra.length = rb.length ∧
          ∀ row : Nat, InRange start stop row → ra.getD row [] = rb.getD row [])
        (reindentAsked style unit a start stop) (reindentAsked style unit b start stop)) ∧
      ∀ lines result, reindentAsked style unit lines start stop = .ok result →
        reindentAsked style unit result start stop = .ok result := by
  have bounds := fun lines => bounds_rowsBetween lines start stop
  constructor
  · intro a b length above bodies
    have lengths : (Document.atLeastOne a).length = (Document.atLeastOne b).length := by
      cases a <;> cases b <;> simp_all [Document.atLeastOne]
    rw [reindentAsked_eq_foldlM, reindentAsked_eq_foldlM, ← lengths]
    apply Together.mono (together_foldlM_settleAfresh style unit lengths (bounds a) ?_ ?_)
    · intro ra rb runA runB agree
      have keptA := kept_of_foldlM (bounds a) runA
      have keptB := kept_of_foldlM (fun r mem => lengths ▸ bounds a r mem) runB
      have same : ra.length = rb.length := by rw [keptA.length, keptB.length, lengths]
      refine ⟨same, fun row within => ?_⟩
      by_cases bound : row < ra.length
      · rw [keptA.length] at bound
        exact agree row (List.mem_range'_1.mp (mem_rowsBetween.mpr ⟨bound, within⟩)).2
      · rw [List.getD_eq_default _ _ (Nat.le_of_not_lt bound),
          List.getD_eq_default _ _ (same ▸ Nat.le_of_not_lt bound)]
    · intro r lt
      rw [Document.getD_atLeastOne, Document.getD_atLeastOne]
      exact above r (by omega)
    · intro r mem
      rw [Document.getD_atLeastOne, Document.getD_atLeastOne]
      exact bodies r (mem_rowsBetween.mp mem).2
  · exact fun lines result run => reindentAsked_again run

end LinkerScriptEditor.Indent
