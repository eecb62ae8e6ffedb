import LinkerScriptEditor.Text.CharClass

/-!
# Capital letters

A character that upper-casing changes becomes one or more characters that it does not change any
more, and none of these is white space or a plus sign. Sets of code points are compared as numbers
with one bit for each code point, since the tables are too long to be compared entry by entry.
-/

namespace LinkerScriptEditor.CharClass

open CharTable

/-- Code points as the bits of a number. -/
def mask (codes : List Nat) : Nat := codes.foldr (fun code set => 1 <<< code ||| set) 0

theorem testBit_mask {codes : List Nat} {code : Nat} :
    (mask codes).testBit code = true ↔ code ∈ codes := by
  induction codes with
  | nil => simp [mask]
  | cons first rest ih =>
      rw [mask, List.foldr_cons, Nat.testBit_or, Bool.or_eq_true, Nat.one_shiftLeft,
        Nat.testBit_two_pow, decide_eq_true_iff, List.mem_cons, eq_comm]
      exact or_congr_right ih

theorem not_mem_of_mask {codes others : List Nat} (apart : mask codes &&& mask others = 0)
    {code : Nat} (mem : code ∈ codes) : code ∉ others := by
  intro other
  have both : (mask codes &&& mask others).testBit code = true := by
    rw [Nat.testBit_and, testBit_mask.mpr mem, testBit_mask.mpr other]
    rfl
  rw [apart, Nat.zero_testBit] at both
  cases both

/-- How far the code points of a run are from its first one. -/
def distances (run : UpperRun) : List Nat :=
  (List.range ((run.last - run.first) / run.step + 1)).map (run.step * ·)

/-- The code points beyond ASCII that upper-casing changes. -/
def changing : List Nat :=
  upperRuns.flatMap (fun run => (distances run).map (run.first + ·)) ++ upperLong.map Prod.fst

/-- The code points beyond ASCII that are changed, in their new form. -/
def changed : List Nat :=
  upperRuns.flatMap (fun run => (distances run).map (run.image + ·)) ++ upperLong.flatMap Prod.snd

def blanks : List Nat := space.flatMap fun range => List.range' range.1 (range.2 + 1 - range.1)

/-- The code points of ASCII that are small letters, white space or the plus sign. -/
def plainAscii : List Nat := List.range' 9 5 ++ List.range' 28 5 ++ [43] ++ List.range' 97 26

/-- Upper-casing leaves the character as it is, and it neither is taken off an end nor divides a
token. -/
def isCapital (c : Char) : Bool := upper c == [c] && !isSpace c && c != '+'

theorem isCapital_iff {c : Char} :
    isCapital c = true ↔ upper c = [c] ∧ isSpace c = false ∧ c ≠ '+' := by
  simp [isCapital, and_assoc]

theorem isCapital_ascii : ∀ code < 128, code ∉ plainAscii → isCapital (Char.ofNat code) = true := by
  decide +kernel

theorem mem_distances {run : UpperRun} {code : Nat}
    (high : code ≤ run.last) (hits : (code - run.first) % run.step = 0) :
    code - run.first ∈ distances run := by
  refine List.mem_map.mpr ⟨(code - run.first) / run.step, List.mem_range.mpr ?_, ?_⟩
  · exact Nat.lt_succ_of_le (Nat.div_le_div_right (Nat.sub_le_sub_right high _))
  · exact Nat.mul_div_cancel' (Nat.dvd_of_mod_eq_zero hits)

/-- A run that changes a character has its code point among the changing ones, and the new one among
the changed ones. -/
theorem upperRun?_cases (c : Char) :
    upperRun? c = none ∨ c.toNat ∈ changing ∧
      ∃ code ∈ changed, upperRun? c = some (Char.ofNat code) := by
  cases found : upperRun? c with
  | none => exact .inl rfl
  | some image =>
      obtain ⟨run, first, rfl⟩ := Option.map_eq_some_iff.mp found
      have mem := List.mem_of_find?_eq_some first
      have within := List.find?_some first
      simp only [Bool.and_eq_true, decide_eq_true_iff, beq_iff_eq] at within
      obtain ⟨⟨low, high⟩, hits⟩ := within
      have distance := mem_distances high hits
      refine .inr ⟨?_, _, ?_, rfl⟩
      · refine List.mem_append_left _ (List.mem_flatMap.mpr ⟨run, mem, List.mem_map.mpr ?_⟩)
        exact ⟨_, distance, Nat.add_sub_cancel' low⟩
      · exact List.mem_append_left _
          (List.mem_flatMap.mpr ⟨run, mem, List.mem_map_of_mem distance⟩)

theorem upper_of_not_changing {c : Char} (beyond : isAscii c = false)
    (other : c.toNat ∉ changing) : upper c = [c] := by
  have short : upperLong.lookup c.toNat = none := by
    rw [List.lookup_eq_none_iff]
    intro entry mem
    rw [bne_iff_ne]
    intro same
    exact other (List.mem_append_right _ (List.mem_map.mpr ⟨entry, mem, same.symm⟩))
  have still := (upperRun?_cases c).resolve_right fun moved => other moved.1
  rw [upper, beyond, short, still]
  rfl

theorem isSpace_of_not_blank {c : Char} (beyond : isAscii c = false) (other : c.toNat ∉ blanks) :
    isSpace c = false := by
  have high : 128 ≤ c.toNat := by simpa [isAscii] using beyond
  have outside : within space c = false := by
    rw [within, List.any_eq_false]
    intro range mem inside
    simp only [Bool.and_eq_true, decide_eq_true_iff] at inside
    refine other (List.mem_flatMap.mpr ⟨range, mem, List.mem_range'_1.mpr ?_⟩)
    omega
  have separator : ¬(28 ≤ c.toNat ∧ c.toNat ≤ 31) := by omega
  rw [isSpace, isSeparator, beyond, outside]
  simpa using separator

theorem toNat_ofNat {code : Nat} (legal : code.isValidChar) : (Char.ofNat code).toNat = code := by
  rw [Char.ofNat, dif_pos legal]
  rfl

/-- What a changed character has become is capital. -/
theorem isCapital_of_mem_changed {code : Nat} (mem : code ∈ changed) :
    isCapital (Char.ofNat code) = true := by
  have apart : mask changed &&& mask (changing ++ blanks ++ plainAscii) = 0 := by decide +kernel
  have valid : changed.all (fun code => Nat.blt code 55296 || Nat.blt 57343 code &&
      Nat.blt code 1114112) = true := by decide +kernel
  have other := not_mem_of_mask apart mem
  simp only [List.mem_append, not_or] at other
  obtain ⟨⟨still, filled⟩, plain⟩ := other
  by_cases ascii : code < 128
  · refine isCapital_ascii code ascii ?_
    simpa only [plainAscii, List.mem_append, not_or] using plain
  · have legal : code.isValidChar := by
      have bounds := List.all_eq_true.mp valid code mem
      simp only [Bool.or_eq_true, Bool.and_eq_true, Nat.blt_eq] at bounds
      exact bounds
    have beyond : isAscii (Char.ofNat code) = false := by
      rw [isAscii, toNat_ofNat legal]
      exact decide_eq_false ascii
    have kept := upper_of_not_changing beyond (by rwa [toNat_ofNat legal])
    have seen := isSpace_of_not_blank beyond (by rwa [toNat_ofNat legal])
    have ne : Char.ofNat code ≠ '+' := by
      intro same
      rw [same] at beyond
      cases beyond
    rw [isCapital, kept, seen]
    simpa using ne

/-- A character is left as it is, or it becomes capital. -/
theorem upper_cases (c : Char) :
    upper c = [c] ∨ upper c ≠ [] ∧ ∀ d ∈ upper c, isCapital d = true := by
  cases ascii : isAscii c with
  | true =>
      by_cases plain : c.toNat ∈ plainAscii
      · have own : plainAscii.all (fun code =>
            let c := Char.ofNat code
            upper c == [c] || !(upper c).isEmpty && (upper c).all isCapital) = true := by
          decide +kernel
        have cases := List.all_eq_true.mp own c.toNat plain
        rw [Char.ofNat_toNat] at cases
        simpa using cases
      · have capital := isCapital_ascii c.toNat (of_decide_eq_true ascii) plain
        rw [Char.ofNat_toNat] at capital
        exact .inl (isCapital_iff.mp capital).1
  | false =>
      cases long : upperLong.lookup c.toNat with
      | none =>
          rcases upperRun?_cases c with none | ⟨-, code, mem, found⟩
          · left
            rw [upper, ascii, long, none]
            rfl
          · right
            have becomes : upper c = [Char.ofNat code] := by
              rw [upper, ascii, long, found]
              rfl
            rw [becomes]
            simpa using isCapital_of_mem_changed mem
      | some codes =>
          right
          have becomes : upper c = codes.map Char.ofNat := by
            rw [upper, ascii, long]
            rfl
          have entry : (c.toNat, codes) ∈ upperLong := by
            obtain ⟨front, behind, split, -⟩ := List.lookup_eq_some_iff.mp long
            rw [split]
            exact List.mem_append_right front List.mem_cons_self
          have several : upperLong.all (fun entry => !entry.2.isEmpty) = true := by decide
          rw [becomes]
          constructor
          · simpa using List.all_eq_true.mp several _ entry
          · intro d mem
            obtain ⟨code, inside, rfl⟩ := List.mem_map.mp mem
            exact isCapital_of_mem_changed
              (List.mem_append_right _ (List.mem_flatMap.mpr ⟨_, entry, inside⟩))

theorem upper_ne_nil (c : Char) : upper c ≠ [] := by
  rcases upper_cases c with same | ⟨some, -⟩
  · simp [same]
  · exact some

/-- Upper-casing makes no white space. -/
theorem isSpace_of_mem_upper {c d : Char} (ink : isSpace c = false) (mem : d ∈ upper c) :
    isSpace d = false := by
  rcases upper_cases c with same | ⟨-, capital⟩
  · rw [same, List.mem_singleton] at mem
    rwa [mem]
  · exact (isCapital_iff.mp (capital d mem)).2.1

/-- Upper-casing makes no plus sign. -/
theorem plus_not_mem_upper {c : Char} (ne : c ≠ '+') : '+' ∉ upper c := by
  intro mem
  rcases upper_cases c with same | ⟨-, capital⟩
  · rw [same, List.mem_singleton] at mem
    exact ne mem.symm
  · exact (isCapital_iff.mp (capital '+' mem)).2.2 rfl

/-- Upper-casing what is in upper case changes nothing. -/
theorem flatMap_upper_flatMap_upper (text : List Char) :
    (text.flatMap upper).flatMap upper = text.flatMap upper := by
  have still : ∀ c, ∀ d ∈ upper c, upper d = [d] := by
    intro c d mem
    rcases upper_cases c with same | ⟨-, capital⟩
    · rw [same, List.mem_singleton] at mem
      rwa [mem]
    · exact (isCapital_iff.mp (capital d mem)).1
  have fixed : ∀ d ∈ text.flatMap upper, upper d = [d] := by
    intro d mem
    obtain ⟨c, -, inside⟩ := List.mem_flatMap.mp mem
    exact still c d inside
  generalize text.flatMap upper = upperCase at fixed ⊢
  induction upperCase with
  | nil => rfl
  | cons d rest ih =>
      obtain ⟨first, others⟩ := List.forall_mem_cons.mp fixed
      rw [List.flatMap_cons, first, ih others]
      rfl

end LinkerScriptEditor.CharClass
