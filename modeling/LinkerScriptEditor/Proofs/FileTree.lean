import LinkerScriptEditor.FileTree
import LinkerScriptEditor.Proofs.Text.Utf8

/-!
# Writing and reading files

Where a path leads to a file it still does after the file is written, and what is read is what was
written, up to line ends. Reading leaves no carriage returns, and a text without any is read as it
was written.
-/

namespace LinkerScriptEditor.FileTree

variable {tree : FileTree} {p : FilePath} {text : List Char}

theorem not_mem_unifyLineEnds (text : List Char) : '\r' ∉ unifyLineEnds text := by
  fun_induction unifyLineEnds text with
  | case1 rest ih => simp [ih]
  | case2 rest other ih => simp [ih]
  | case3 c rest other plain ih =>
      have ne : '\r' ≠ c := by
        rintro rfl
        exact plain rfl
      simp [ih, ne]
  | case4 => exact List.not_mem_nil

theorem unifyLineEnds_of_not_mem (free : '\r' ∉ text) : unifyLineEnds text = text := by
  induction text with
  | nil => rfl
  | cons c rest ih =>
      obtain ⟨other, free⟩ := List.ne_and_not_mem_of_not_mem_cons free
      have kept : unifyLineEnds (c :: rest) = c :: unifyLineEnds rest := by
        rw [unifyLineEnds.eq_3]
        · rintro rest rfl
          exact absurd rfl other
        · rintro rfl
          exact absurd rfl other
      rw [kept, ih free]

theorem readText_eq_ok_iff : tree.readText p = .ok text ↔ ∃ bytes plain,
    tree.readBytes p = .ok bytes ∧ decode bytes = .ok plain ∧ unifyLineEnds plain = text := by
  rw [readText]
  cases tree.readBytes p with
  | error fault => exact iff_of_false nofun (by rintro ⟨_, _, ⟨⟩, -⟩)
  | ok bytes =>
      change unifyLineEnds <$> decode bytes = _ ↔ _
      cases decoded : decode bytes with
      | error fault =>
          refine iff_of_false nofun ?_
          rintro ⟨_, _, ⟨⟩, found, -⟩
          cases decoded.symm.trans found
      | ok plain =>
          constructor
          · rintro ⟨⟩
            exact ⟨bytes, plain, rfl, decoded, rfl⟩
          · rintro ⟨_, _, ⟨⟩, found, rfl⟩
            cases decoded.symm.trans found
            rfl

/-- The path leads to a file. -/
def HasFile (tree : FileTree) (p : FilePath) : Prop :=
  ∃ parts bytes, tree.target p = .ok (.file parts bytes)

/-- On the way to a file there are directories, so another file in its place is found as well. -/
theorem walk_put {parts full : List String} {here : List String} {old : List UInt8}
    (node : OrderedMap.get? full tree = some (.file old)) {new : List UInt8}
    (leads : walk tree here parts = .ok (.file full old)) :
    walk (OrderedMap.put full (.file new) tree) here parts = .ok (.file full new) := by
  induction parts generalizing here with
  | nil => cases leads
  | cons part rest ih =>
      rw [walk] at leads ⊢
      by_cases up : part = ".."
      · rw [if_pos up] at leads ⊢
        exact ih leads
      · rw [if_neg up] at leads ⊢
        by_cases long : maxName < part.utf8ByteSize
        · rw [if_pos long] at leads
          cases leads
        · rw [if_neg long] at leads ⊢
          dsimp only at leads ⊢
          rw [OrderedMap.get?_put]
          by_cases last : full = here ++ [part]
          · rw [← last, node] at leads
            rw [if_pos last, ← last]
            dsimp only at leads ⊢
            split at leads
            · next ends => rw [if_pos ends]
            · cases leads
          · rw [if_neg last]
            cases found : OrderedMap.get? (here ++ [part]) tree with
            | none =>
                rw [found] at leads
                dsimp only at leads
                split at leads <;> cases leads
            | some node =>
                rw [found] at leads
                cases node with
                | directory => exact ih leads
                | file bytes =>
                    dsimp only at leads
                    split at leads
                    · cases leads
                      exact absurd rfl last
                    · cases leads

/-- What a walk finds as a file is there. -/
theorem get?_of_walk {parts full : List String} {here : List String} {bytes : List UInt8}
    (leads : walk tree here parts = .ok (.file full bytes)) :
    OrderedMap.get? full tree = some (.file bytes) := by
  fun_induction walk tree here parts with
  | case1 => cases leads
  | case2 here rest ih => exact ih leads
  | case3 => cases leads
  | case4 here part rest up long next found ih => exact ih leads
  | case5 here part rest up long next bytes found ends =>
      obtain ⟨rfl, rfl⟩ := Target.file.inj (Except.ok.inj leads)
      exact found
  | case6 => cases leads
  | case7 => cases leads
  | case8 => cases leads

theorem HasFile.of_readText (read : tree.readText p = .ok text) : tree.HasFile p := by
  obtain ⟨bytes, plain, found, -, -⟩ := readText_eq_ok_iff.mp read
  rw [readBytes] at found
  split at found
  · next parts _ target => exact ⟨parts, _, target⟩
  · cases found
  · cases found
  · cases found

/-- No kind of line end but line feeds is read. -/
theorem not_mem_of_readText (read : tree.readText p = .ok text) : '\r' ∉ text := by
  obtain ⟨bytes, plain, -, -, rfl⟩ := readText_eq_ok_iff.mp read
  exact not_mem_unifyLineEnds plain

theorem HasFile.exists? (file : tree.HasFile p) : tree.exists? p = .ok true := by
  obtain ⟨parts, bytes, target⟩ := file
  rw [FileTree.exists?, target]

theorem target_put {parts : List String} {old : List UInt8}
    (target : tree.target p = .ok (.file parts old)) (new : List UInt8) :
    FileTree.target (OrderedMap.put parts (.file new) tree) p = .ok (.file parts new) := by
  rw [FileTree.target] at target ⊢
  split at target
  · cases target
  · next plain =>
      rw [if_neg plain]
      split at target
      · cases target
      · next short =>
          rw [if_neg short]
          split at target
          · next found leads =>
              cases target
              rw [walk_put (get?_of_walk leads) leads]
          · cases target

/-- A file that is there is written, is there afterwards, and holds the text. -/
theorem HasFile.writeText (file : tree.HasFile p) (text : List Char) :
    ∃ after, tree.writeText p text = .ok after ∧ after.HasFile p ∧
      after.readText p = .ok (unifyLineEnds text) := by
  obtain ⟨parts, bytes, target⟩ := file
  have written := target_put target (Utf8.encode text)
  refine ⟨OrderedMap.put parts (.file (Utf8.encode text)) tree, ?_, ⟨parts, _, written⟩, ?_⟩
  · rw [FileTree.writeText, target]
  · refine readText_eq_ok_iff.mpr ⟨Utf8.encode text, text, ?_, ?_, rfl⟩
    · rw [readBytes, written]
    · rw [decode, Utf8.decode_encode]

end LinkerScriptEditor.FileTree
