import LinkerScriptEditor.Text.Utf8

/-!
# Decoding what was encoded

Every text can be written as bytes and read back. The first byte of a character tells how many
follow, and the narrower range of the second one leaves out just what no character needs.
-/

namespace LinkerScriptEditor.Utf8

theorem toNat_ofNat_of_lt {n : Nat} (lt : n < 256) : (UInt8.ofNat n).toNat = n := by
  rw [UInt8.toNat_ofNat', Nat.mod_eq_of_lt lt]

theorem lead?_two {b : Nat} (low : 0xc2 ≤ b) (high : b ≤ 0xdf) :
    lead? b = some ⟨1, 0x80, 0xbf, b - 0xc0⟩ := by
  simp [lead?, low, high]

theorem lead?_three {b : Nat} (low : 0xe0 ≤ b) (high : b ≤ 0xef) :
    lead? b = some ⟨2, if b = 0xe0 then 0xa0 else 0x80, if b = 0xed then 0x9f else 0xbf,
      b - 0xe0⟩ := by
  have above : ¬b ≤ 0xdf := by omega
  by_cases first : b = 0xe0
  · simp [lead?, first]
  · by_cases surrogate : b = 0xed
    · simp [lead?, surrogate]
    · have more : 0xe1 ≤ b := by omega
      simp [lead?, above, first, surrogate, more, high]

theorem lead?_four {b : Nat} (low : 0xf0 ≤ b) (high : b ≤ 0xf4) :
    lead? b = some ⟨3, if b = 0xf0 then 0x90 else 0x80, if b = 0xf4 then 0x8f else 0xbf,
      b - 0xf0⟩ := by
  have above : ¬b ≤ 0xdf := by omega
  have beyond : ¬b ≤ 0xef := by omega
  by_cases first : b = 0xf0
  · simp [lead?, first]
  · by_cases last : b = 0xf4
    · simp [lead?, last]
    · have between : 0xf1 ≤ b ∧ b ≤ 0xf3 := by omega
      have other : b ≠ 0xe0 ∧ b ≠ 0xed := by omega
      simp [lead?, above, beyond, first, last, between, other]

/-- A byte in range adds six bits. -/
theorem tail_cons {low high bits : Nat} (good code more : Nat) (rest : List UInt8)
    (six : bits < 64) (above : low ≤ bits + 0x80) (below : bits + 0x80 ≤ high) :
    tail good code (more + 1) low high (UInt8.ofNat (bits + 0x80) :: rest) =
      tail (good + 1) (code * 64 + bits) more 0x80 0xbf rest := by
  have byte : (UInt8.ofNat (bits + 0x80)).toNat = bits + 0x80 := toNat_ofNat_of_lt (by omega)
  have inside : (decide (low ≤ bits + 0x80) && decide (bits + 0x80 ≤ high)) = true := by
    simp [above, below]
  rw [tail, byte, if_pos inside, Nat.add_sub_cancel]

theorem next_of_lead {b : UInt8} {lead : Lead} {rest left : List UInt8} {c : Char}
    (high : 0x80 ≤ b.toNat) (leads : lead? b.toNat = some lead)
    (read : tail 1 lead.bits lead.more lead.low lead.high rest = .ok (c.toNat, left))
    (offset : Nat) : next offset b rest = .ok (c, left) := by
  rw [next, if_neg (by omega), leads]
  dsimp only
  rw [read]
  dsimp only
  rw [Char.ofNat_toNat]

/-- A character is read back from its bytes, whatever follows. -/
theorem next_utf8EncodeChar (c : Char) :
    ∃ b bytes, String.utf8EncodeChar c = b :: bytes ∧
      ∀ offset rest, next offset b (bytes ++ rest) = .ok (c, rest) := by
  have valid : c.toNat < 0xd800 ∨ 0xdfff < c.toNat ∧ c.toNat < 0x110000 := c.valid
  have value : c.val.toNat = c.toNat := rfl
  rw [String.utf8EncodeChar, value]
  split
  · next one =>
      refine ⟨_, [], rfl, fun offset rest => ?_⟩
      have byte := toNat_ofNat_of_lt (n := c.toNat) (by omega)
      rw [next, byte, if_pos (by omega), Char.ofNat_toNat]
      rfl
  · split
    · next two =>
        refine ⟨_, [_], rfl, fun offset rest => ?_⟩
        have byte := toNat_ofNat_of_lt (n := c.toNat / 64 % 32 + 192) (by omega)
        apply next_of_lead (by omega)
        · rw [byte]
          exact lead?_two (by omega) (by omega)
        · dsimp only [List.cons_append, List.nil_append]
          rw [tail_cons _ _ _ _ (by omega) (by omega) (by omega), tail]
          congr 2
          omega
    · split
      · next three =>
          refine ⟨_, [_, _], rfl, fun offset rest => ?_⟩
          have byte := toNat_ofNat_of_lt (n := c.toNat / 4096 % 16 + 224) (by omega)
          apply next_of_lead (by omega)
          · rw [byte]
            exact lead?_three (by omega) (by omega)
          · dsimp only [List.cons_append, List.nil_append]
            rw [tail_cons _ _ _ _ (by omega) (by split <;> omega) (by split <;> omega),
              tail_cons _ _ _ _ (by omega) (by omega) (by omega), tail]
            congr 2
            omega
      · next four =>
          refine ⟨_, [_, _, _], rfl, fun offset rest => ?_⟩
          have byte := toNat_ofNat_of_lt (n := c.toNat / 262144 % 8 + 240) (by omega)
          apply next_of_lead (by omega)
          · rw [byte]
            exact lead?_four (by omega) (by omega)
          · dsimp only [List.cons_append, List.nil_append]
            rw [tail_cons _ _ _ _ (by omega) (by split <;> omega) (by split <;> omega),
              tail_cons _ _ _ _ (by omega) (by omega) (by omega),
              tail_cons _ _ _ _ (by omega) (by omega) (by omega), tail]
            congr 2
            omega

theorem decodeFrom_encode (text : List Char) {fuel : Nat} (enough : text.length ≤ fuel)
    (offset : Nat) : decodeFrom fuel offset (encode text) = .ok text := by
  induction text generalizing fuel offset with
  | nil => cases fuel <;> rfl
  | cons c text ih =>
      obtain ⟨fuel, rfl⟩ : ∃ less, fuel = less + 1 := Nat.exists_eq_add_one.mpr (by
        rw [List.length_cons] at enough
        omega)
      obtain ⟨b, bytes, encoded, reads⟩ := next_utf8EncodeChar c
      have split : encode (c :: text) = b :: (bytes ++ encode text) := by
        rw [encode, List.flatMap_cons, encoded]
        rfl
      rw [split, decodeFrom, reads]
      dsimp only
      rw [ih (Nat.le_of_succ_le_succ enough)]

/-- A text is at most as long as its bytes. -/
theorem length_le_encode (text : List Char) : text.length ≤ (encode text).length := by
  induction text with
  | nil => exact Nat.le_refl 0
  | cons c text ih =>
      have pos := c.utf8Size_pos
      rw [encode, List.flatMap_cons, List.length_append, String.length_utf8EncodeChar,
        List.length_cons]
      rw [encode] at ih
      omega

theorem decode_encode (text : List Char) : decode (encode text) = .ok text :=
  decodeFrom_encode text (length_le_encode text) 0

end LinkerScriptEditor.Utf8
