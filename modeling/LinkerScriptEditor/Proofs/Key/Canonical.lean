import Mathlib.Data.List.Nodup
import LinkerScriptEditor.Key
import LinkerScriptEditor.Proofs.Text.Capitals
import LinkerScriptEditor.Proofs.Text.Pieces

/-!
# Canonical tokens

In its normal form a token names its modifiers as a set: trimmed, in upper case, sorted and each of
them once. So two tokens have the same normal form just if they have the same key and the same set
of modifiers, and a normal form is its own. Only a token that ends in a plus sign is left as it was
written, and then the order of its modifiers counts.
-/

namespace LinkerScriptEditor

namespace CharClass

variable {p : Char → Bool} {text : List Char}

/-- No end of a text has a character of a class. -/
def Trimmed (p : Char → Bool) (text : List Char) : Prop :=
  (∀ c ∈ text.head?, p c = false) ∧ ∀ c ∈ text.getLast?, p c = false

theorem dropWhile_of_head? (head : ∀ c ∈ text.head?, p c = false) : text.dropWhile p = text := by
  cases text with
  | nil => rfl
  | cons c rest => rw [List.dropWhile_cons_of_neg (by simp [head c rfl])]

theorem head?_dropWhile (p : Char → Bool) (text : List Char) :
    ∀ c ∈ (text.dropWhile p).head?, p c = false := by
  intro c mem
  have first := List.head?_dropWhile_not p text
  rw [mem] at first
  exact first

theorem trimWhile_of_trimmed (trimmed : Trimmed p text) : trimWhile p text = text := by
  rw [trimWhile, dropWhile_of_head? trimmed.1, dropWhile_of_head?, List.reverse_reverse]
  rw [List.head?_reverse]
  exact trimmed.2

theorem trimmed_trimWhile (p : Char → Bool) (text : List Char) :
    Trimmed p (trimWhile p text) := by
  constructor
  · -- what is dropped at the end leaves a beginning of the rest
    have start : trimWhile p text <+: text.dropWhile p := by
      have suffix := List.dropWhile_suffix p (l := (text.dropWhile p).reverse)
      rw [← List.reverse_prefix, List.reverse_reverse] at suffix
      exact suffix
    intro c mem
    obtain ⟨rest, split⟩ := start
    refine head?_dropWhile p text c ?_
    rw [← split, List.head?_append, Option.mem_def.mp mem]
    rfl
  · rw [trimWhile, List.getLast?_reverse]
    exact head?_dropWhile p _

theorem mem_of_mem_trimWhile {c : Char} (mem : c ∈ trimWhile p text) : c ∈ text := by
  rw [trimWhile, List.mem_reverse] at mem
  have inside := (List.dropWhile_sublist p).mem mem
  exact (List.dropWhile_sublist p).mem (List.mem_reverse.mp inside)

end CharClass

namespace Token

open CharClass

variable {modifiers others : List (List Char)} {token : String} {key : List Char}

/-- A modifier as normal tokens name it. -/
def label (modifier : List Char) : List Char := (trimWhile isSpace modifier).flatMap upper

theorem trimmed_flatMap_upper {text : List Char} (trimmed : Trimmed isSpace text) :
    Trimmed isSpace (text.flatMap upper) := by
  constructor
  · cases text with
    | nil => nofun
    | cons c rest =>
        intro d mem
        rw [List.flatMap_cons, List.head?_append_of_ne_nil _ (upper_ne_nil c)] at mem
        exact isSpace_of_mem_upper (trimmed.1 c rfl) (List.mem_of_mem_head? mem)
  · rcases List.eq_nil_or_concat' text with rfl | ⟨front, c, rfl⟩
    · nofun
    · intro d mem
      rw [List.flatMap_append, List.flatMap_singleton,
        List.getLast?_append_of_ne_nil _ (upper_ne_nil c)] at mem
      exact isSpace_of_mem_upper (trimmed.2 c (by simp)) (List.mem_of_mem_getLast? mem)

theorem label_label (modifier : List Char) : label (label modifier) = label modifier := by
  have trimmed := trimmed_flatMap_upper (trimmed_trimWhile isSpace modifier)
  rw [label, label, trimWhile_of_trimmed trimmed, flatMap_upper_flatMap_upper]

theorem label_eq_nil_iff {modifier : List Char} :
    label modifier = [] ↔ trimWhile isSpace modifier = [] := by
  rw [label, List.flatMap_eq_nil_iff]
  constructor
  · intro none
    rw [List.eq_nil_iff_forall_not_mem]
    exact fun c mem => upper_ne_nil c (none c mem)
  · intro none
    simp [none]

section Order

theorem isBefore_iff {a b : List Char} : isBefore a b = true ↔ a.le b := by
  rw [isBefore, Bool.not_eq_true', ← Bool.not_eq_true, List.lex_eq_true_iff_lt]

theorem isBefore_trans (a b c : List Char) (first : isBefore a b = true)
    (second : isBefore b c = true) : isBefore a c = true :=
  isBefore_iff.mpr (List.le_trans (isBefore_iff.mp first) (isBefore_iff.mp second))

theorem isBefore_total (a b : List Char) : (isBefore a b || isBefore b a) = true := by
  rw [Bool.or_eq_true, isBefore_iff, isBefore_iff]
  exact List.le_total a b

theorem sorted_canonical (modifiers : List (List Char)) :
    (canonical modifiers).Pairwise fun a b => isBefore a b = true :=
  List.pairwise_mergeSort isBefore_trans isBefore_total _

end Order

theorem mem_canonical_iff {name : List Char} :
    name ∈ canonical modifiers ↔ name ≠ [] ∧ ∃ modifier ∈ modifiers, label modifier = name := by
  simp only [canonical, List.mem_mergeSort, List.mem_eraseDups, List.mem_map, List.mem_filter]
  constructor
  · rintro ⟨_, ⟨⟨modifier, mem, rfl⟩, some⟩, rfl⟩
    refine ⟨?_, modifier, mem, rfl⟩
    intro none
    simp [label_eq_nil_iff.mp none] at some
  · rintro ⟨some, modifier, mem, rfl⟩
    refine ⟨_, ⟨⟨modifier, mem, rfl⟩, ?_⟩, rfl⟩
    simpa [label_eq_nil_iff] using some

theorem nodup_eraseDups {α : Type} [BEq α] [LawfulBEq α] (names : List α) :
    names.eraseDups.Nodup := by
  induction h : names.length using Nat.strongRecOn generalizing names with
  | ind length ih =>
      cases names with
      | nil => exact List.nodup_nil
      | cons name rest =>
          rw [List.eraseDups_cons, List.nodup_cons]
          constructor
          · rw [List.mem_eraseDups, List.mem_filter]
            simp
          · refine ih _ ?_ _ rfl
            rw [← h, List.length_cons]
            exact Nat.lt_succ_of_le (List.length_filter_le _ _)

theorem nodup_canonical (modifiers : List (List Char)) : (canonical modifiers).Nodup :=
  (List.mergeSort_perm _ _).nodup_iff.mpr (nodup_eraseDups _)

/-- A normal form is settled by what it holds. -/
theorem canonical_eq_iff :
    canonical modifiers = canonical others ↔
      ∀ name, name ∈ canonical modifiers ↔ name ∈ canonical others := by
  constructor
  · intro same name
    rw [same]
  · intro same
    have perm : (canonical modifiers).Perm (canonical others) :=
      (List.perm_ext_iff_of_nodup (nodup_canonical _) (nodup_canonical _)).mpr same
    refine perm.eq_of_pairwise ?_ (sorted_canonical _) (sorted_canonical _)
    intro a b _ _ first second
    exact List.le_antisymm (isBefore_iff.mp first) (isBefore_iff.mp second)

theorem canonical_canonical (modifiers : List (List Char)) :
    canonical (canonical modifiers) = canonical modifiers := by
  rw [canonical_eq_iff]
  intro name
  rw [mem_canonical_iff]
  constructor
  · rintro ⟨some, modifier, mem, rfl⟩
    obtain ⟨-, own, -, rfl⟩ := mem_canonical_iff.mp mem
    rwa [label_label]
  · intro mem
    obtain ⟨some, own, -, rfl⟩ := mem_canonical_iff.mp mem
    exact ⟨some, label own, mem, label_label own⟩

theorem plus_not_mem_canonical (free : ∀ modifier ∈ modifiers, '+' ∉ modifier) :
    ∀ name ∈ canonical modifiers, '+' ∉ name := by
  intro name mem plus
  obtain ⟨-, modifier, inside, rfl⟩ := mem_canonical_iff.mp mem
  obtain ⟨c, kept, raised⟩ := List.mem_flatMap.mp plus
  refine plus_not_mem_upper ?_ raised
  rintro rfl
  exact free modifier inside (mem_of_mem_trimWhile kept)

section Normal

theorem normalize_of_split {last : List Char}
    (split : splitOn '+' token.toList = modifiers ++ [last]) :
    normalize token = if last = [] ∨ modifiers = [] then token
      else String.ofList (joinWith '+' (canonical modifiers ++ [last])) := by
  rw [normalize, split, List.reverse_append, List.reverse_singleton, List.singleton_append]
  rcases List.eq_nil_or_concat' modifiers with rfl | ⟨front, modifier, rfl⟩
  · simp
  · simp [List.isEmpty_iff]

/-- A token whose modifiers are in normal form is so itself. -/
theorem normalize_of_canonical {last : List Char}
    (split : splitOn '+' token.toList = modifiers ++ [last])
    (normal : canonical modifiers = modifiers) : normalize token = token := by
  rw [normalize_of_split split]
  split
  · rfl
  · rw [normal, ← split, joinWith_splitOn, String.ofList_toList]

theorem exists_split (token : String) :
    ∃ modifiers last, splitOn '+' token.toList = modifiers ++ [last] := by
  rcases List.eq_nil_or_concat' (splitOn '+' token.toList) with none | ⟨modifiers, last, split⟩
  · exact absurd none (splitOn_ne_nil _ _)
  · exact ⟨modifiers, last, split⟩

/-- The pieces of a normal form. -/
theorem splitOn_normalize {last : List Char}
    (split : splitOn '+' token.toList = modifiers ++ [last]) :
    splitOn '+' (normalize token).toList =
      (if last = [] ∨ modifiers = [] then modifiers else canonical modifiers) ++ [last] := by
  have free : ∀ piece ∈ modifiers ++ [last], '+' ∉ piece := by
    rw [← split]
    exact fun piece => not_mem_of_mem_splitOn
  obtain ⟨named, own⟩ := List.forall_mem_append.mp free
  rw [normalize_of_split split]
  split
  · exact split
  · rw [String.toList_ofList]
    refine splitOn_joinWith (by simp) ?_
    exact List.forall_mem_append.mpr ⟨plus_not_mem_canonical named, own⟩

/-- A normal form is its own normal form. -/
theorem normalize_idempotent (token : String) : normalize (normalize token) = normalize token := by
  obtain ⟨modifiers, last, split⟩ := exists_split token
  have pieces := splitOn_normalize split
  by_cases still : last = [] ∨ modifiers = []
  · rw [normalize_of_split split, if_pos still, normalize_of_split split, if_pos still]
  · rw [if_neg still] at pieces
    rw [normalize_of_split pieces, canonical_canonical]
    split
    · rfl
    · rw [normalize_of_split split, if_neg still]

end Normal

section Chords

/-- The token of a key and the modifiers in front of it. -/
def chord (modifiers : List String) (key : String) : String := "+".intercalate (modifiers ++ [key])

/-- A key is named by one character, which may be the plus sign, or without plus signs. -/
def IsKey (key : String) : Prop := key.toList.length = 1 ∨ '+' ∉ key.toList

/-- The name of a modifier is not blank and holds no plus sign. -/
def IsModifier (modifier : String) : Prop :=
  CharClass.trim modifier ≠ "" ∧ '+' ∉ modifier.toList

instance : DecidablePred IsKey := fun _ => inferInstanceAs (Decidable (_ ∨ _))

instance : DecidablePred IsModifier := fun _ => inferInstanceAs (Decidable (_ ∧ _))

/-- Modifiers are the same set once they are trimmed and in upper case. -/
def SameModifiers (modifiers others : List String) : Prop :=
  ∀ name, name ∈ modifiers.map (CharClass.upperText ∘ CharClass.trim) ↔
    name ∈ others.map (CharClass.upperText ∘ CharClass.trim)

instance (modifiers others : List String) : Decidable (SameModifiers modifiers others) :=
  decidable_of_iff
    ((∀ name ∈ modifiers.map (CharClass.upperText ∘ CharClass.trim),
        name ∈ others.map (CharClass.upperText ∘ CharClass.trim)) ∧
      ∀ name ∈ others.map (CharClass.upperText ∘ CharClass.trim),
        name ∈ modifiers.map (CharClass.upperText ∘ CharClass.trim))
    ⟨fun both name => ⟨both.1 name, both.2 name⟩,
      fun same => ⟨fun name => (same name).mp, fun name => (same name).mpr⟩⟩

theorem intercalate_eq_joinWith (separator : Char) (pieces : List (List Char)) :
    [separator].intercalate pieces = joinWith separator pieces := by
  induction pieces with
  | nil => rfl
  | cons piece rest ih =>
      cases rest with
      | nil => simp [joinWith]
      | cons next others => rw [List.intercalate_cons_cons, ih, joinWith]; simp

theorem splitOn_joinWith_concat {separator : Char} {pieces : List (List Char)}
    (free : ∀ piece ∈ pieces, separator ∉ piece) (last : List Char) :
    splitOn separator (joinWith separator (pieces ++ [last])) =
      pieces ++ splitOn separator last := by
  induction pieces with
  | nil => rfl
  | cons piece rest ih =>
      obtain ⟨own, others⟩ := List.forall_mem_cons.mp free
      have more : joinWith separator (piece :: rest ++ [last]) =
          piece ++ separator :: joinWith separator (rest ++ [last]) := by
        cases rest <;> rfl
      rw [more, splitOn_append_cons own, ih others, List.cons_append]

theorem splitOn_chord {modifiers : List String} (named : ∀ m ∈ modifiers, IsModifier m)
    (key : String) :
    splitOn '+' (chord modifiers key).toList =
      modifiers.map String.toList ++ splitOn '+' key.toList := by
  have toList : (chord modifiers key).toList =
      joinWith '+' (modifiers.map String.toList ++ [key.toList]) := by
    rw [chord, String.toList_intercalate, List.map_append]
    exact intercalate_eq_joinWith '+' _
  rw [toList]
  refine splitOn_joinWith_concat ?_ _
  intro piece mem
  obtain ⟨modifier, own, rfl⟩ := List.mem_map.mp mem
  exact (named modifier own).2

/-- A key that ends its token in a plus sign. -/
def EndsOpen (key : String) : Prop := key = "" ∨ key = "+"

instance (key : String) : Decidable (EndsOpen key) := inferInstanceAs (Decidable (_ ∨ _))

theorem IsKey.plus_not_mem {key : String} (named : IsKey key) (closed : ¬EndsOpen key) :
    '+' ∉ key.toList := by
  rcases named with single | free
  · obtain ⟨c, only⟩ := List.length_eq_one_iff.mp single
    rw [only, List.mem_singleton]
    rintro rfl
    exact closed (.inr (String.toList_inj.mp only))
  · exact free

theorem exists_splitOn_of_endsOpen {key : String} (ends : EndsOpen key) :
    ∃ front, splitOn '+' key.toList = front ++ [[]] := by
  rcases ends with rfl | rfl
  · exact ⟨[], rfl⟩
  · exact ⟨[[]], rfl⟩

variable {modifiers others : List String} {key other : String}

theorem normalize_chord_of_endsOpen (named : ∀ m ∈ modifiers, IsModifier m) (ends : EndsOpen key) :
    normalize (chord modifiers key) = chord modifiers key := by
  obtain ⟨front, split⟩ := exists_splitOn_of_endsOpen ends
  have pieces := splitOn_chord named key
  rw [split, ← List.append_assoc] at pieces
  rw [normalize_of_split pieces, if_pos (.inl rfl)]

theorem splitOn_normalize_chord (some : modifiers ≠ []) (named : ∀ m ∈ modifiers, IsModifier m)
    (plain : IsKey key) (closed : ¬EndsOpen key) :
    splitOn '+' (normalize (chord modifiers key)).toList =
      canonical (modifiers.map String.toList) ++ [key.toList] := by
  have pieces := splitOn_chord named key
  rw [splitOn_of_not_mem (plain.plus_not_mem closed)] at pieces
  rw [splitOn_normalize pieces, if_neg]
  rintro (empty | none)
  · exact closed (.inl (String.toList_inj.mp empty))
  · exact some (List.map_eq_nil_iff.mp none)

theorem toList_inj_of_splitOn {first second : String}
    (same : splitOn '+' first.toList = splitOn '+' second.toList) : first = second := by
  rw [← String.toList_inj, ← joinWith_splitOn '+' first.toList, same, joinWith_splitOn]

theorem IsModifier.toList_ne_nil {modifier : String} (named : IsModifier modifier) :
    modifier.toList ≠ [] := by
  intro none
  refine named.1 ?_
  rw [CharClass.trim, none]
  rfl

/-- Up to its first empty piece a token that ends in a plus sign holds its modifiers. -/
theorem takeWhile_splitOn_chord (named : ∀ m ∈ modifiers, IsModifier m) (ends : EndsOpen key) :
    (splitOn '+' (chord modifiers key).toList).takeWhile (!·.isEmpty) =
      modifiers.map String.toList := by
  have full : ∀ piece ∈ modifiers.map String.toList, (!piece.isEmpty) = true := by
    intro piece mem
    obtain ⟨modifier, own, rfl⟩ := List.mem_map.mp mem
    simp [(named modifier own).toList_ne_nil]
  rw [splitOn_chord named, List.takeWhile_append_of_pos full]
  rcases ends with rfl | rfl <;> exact List.append_nil _

theorem chord_eq_iff (named : ∀ m ∈ modifiers, IsModifier m) (named' : ∀ m ∈ others, IsModifier m)
    (ends : EndsOpen key) (ends' : EndsOpen other) :
    chord modifiers key = chord others other ↔ key = other ∧ modifiers = others := by
  constructor
  · intro same
    have texts : modifiers.map String.toList = others.map String.toList := by
      rw [← takeWhile_splitOn_chord named ends, same, takeWhile_splitOn_chord named' ends']
    have pieces := splitOn_chord named key
    rw [same, splitOn_chord named' other, texts] at pieces
    refine ⟨toList_inj_of_splitOn (List.append_cancel_left pieces).symm, ?_⟩
    exact List.map_injective_iff.mpr (fun _ _ => String.toList_inj.mp) texts
  · rintro ⟨rfl, rfl⟩
    rfl

theorem mem_map_label_iff {modifiers : List String} {name : List Char} :
    String.ofList name ∈ modifiers.map (CharClass.upperText ∘ CharClass.trim) ↔
      ∃ modifier ∈ modifiers.map String.toList, label modifier = name := by
  simp only [List.mem_map, Function.comp_apply, exists_exists_and_eq_and]
  refine exists_congr fun modifier => and_congr_right fun _ => ?_
  rw [CharClass.upperText, CharClass.trim, String.toList_ofList, String.ofList_inj, label]

theorem mem_canonical_toList_iff (named : ∀ m ∈ modifiers, IsModifier m) {name : List Char} :
    name ∈ canonical (modifiers.map String.toList) ↔
      String.ofList name ∈ modifiers.map (CharClass.upperText ∘ CharClass.trim) := by
  rw [mem_canonical_iff, mem_map_label_iff, and_iff_right_iff_imp]
  rintro ⟨text, mem, rfl⟩ none
  obtain ⟨modifier, own, rfl⟩ := List.mem_map.mp mem
  refine (named modifier own).1 ?_
  rw [CharClass.trim, label_eq_nil_iff.mp none, String.ofList_nil]

theorem canonical_toList_eq_iff (named : ∀ m ∈ modifiers, IsModifier m)
    (named' : ∀ m ∈ others, IsModifier m) :
    canonical (modifiers.map String.toList) = canonical (others.map String.toList) ↔
      SameModifiers modifiers others := by
  rw [canonical_eq_iff]
  constructor
  · intro same name
    have own := same name.toList
    rwa [mem_canonical_toList_iff named, mem_canonical_toList_iff named',
      String.ofList_toList] at own
  · intro same name
    rw [mem_canonical_toList_iff named, mem_canonical_toList_iff named', same]

/-- A token that ends in a plus sign stays apart from one that does not. -/
theorem normalize_chord_ne (some : others ≠ []) (named : ∀ m ∈ modifiers, IsModifier m)
    (named' : ∀ m ∈ others, IsModifier m) (ends : EndsOpen key) (plain : IsKey other)
    (closed : ¬EndsOpen other) :
    normalize (chord modifiers key) ≠ normalize (chord others other) := by
  intro same
  obtain ⟨front, split⟩ := exists_splitOn_of_endsOpen ends
  have pieces := splitOn_normalize_chord some named' plain closed
  rw [← same, normalize_chord_of_endsOpen named ends, splitOn_chord named, split,
    ← List.append_assoc, List.append_singleton_inj] at pieces
  exact closed (.inl (String.toList_inj.mp pieces.2.symm))

/-- Tokens have the same normal form just if they have the same key and the same set of modifiers,
but behind a plus sign at the end the modifiers count as they are written. A normal form is its
own. -/
theorem normalize_chord_eq_iff (some : modifiers ≠ []) (some' : others ≠ [])
    (named : ∀ m ∈ modifiers, IsModifier m) (named' : ∀ m ∈ others, IsModifier m)
    (plain : IsKey key) (plain' : IsKey other) :
    (normalize (chord modifiers key) = normalize (chord others other) ↔
      key = other ∧ if EndsOpen key then modifiers = others else SameModifiers modifiers others) ∧
    ∀ token, normalize (normalize token) = normalize token := by
  refine ⟨?_, normalize_idempotent⟩
  by_cases ends : EndsOpen key <;> by_cases ends' : EndsOpen other
  · rw [normalize_chord_of_endsOpen named ends, normalize_chord_of_endsOpen named' ends',
      chord_eq_iff named named' ends ends', if_pos ends]
  · refine iff_of_false (normalize_chord_ne some' named named' ends plain' ends') ?_
    rintro ⟨rfl, -⟩
    exact ends' ends
  · refine iff_of_false (normalize_chord_ne some named' named ends' plain ends).symm ?_
    rintro ⟨rfl, -⟩
    exact ends ends'
  · have pieces := splitOn_normalize_chord some named plain ends
    have pieces' := splitOn_normalize_chord some' named' plain' ends'
    have apart : splitOn '+' (normalize (chord modifiers key)).toList =
        splitOn '+' (normalize (chord others other)).toList ↔
          canonical (modifiers.map String.toList) = canonical (others.map String.toList) ∧
            key = other := by
      rw [pieces, pieces', List.append_singleton_inj, String.toList_inj]
    rw [if_neg ends, ← canonical_toList_eq_iff named named', and_comm, ← apart]
    exact ⟨fun same => by rw [same], toList_inj_of_splitOn⟩

theorem normalize_chord_backslash_eq :
    (∀ m ∈ ["ctrl", " Alt", "ALT"], IsModifier m) ∧ (∀ m ∈ ["ALT", "CTRL"], IsModifier m) ∧
      IsKey "\\" ∧ SameModifiers ["ctrl", " Alt", "ALT"] ["ALT", "CTRL"] ∧
      normalize (chord ["ctrl", " Alt", "ALT"] "\\") = normalize (chord ["ALT", "CTRL"] "\\") := by
  have named : ∀ m ∈ ["ctrl", " Alt", "ALT"], IsModifier m := by decide +kernel
  have named' : ∀ m ∈ ["ALT", "CTRL"], IsModifier m := by decide +kernel
  have plain : IsKey "\\" := by decide +kernel
  have same : SameModifiers ["ctrl", " Alt", "ALT"] ["ALT", "CTRL"] := by decide +kernel
  have alike := (normalize_chord_eq_iff (by simp) (by simp) named named' plain plain).1
  refine ⟨named, named', plain, same, alike.mpr ⟨rfl, ?_⟩⟩
  rwa [if_neg (by decide +kernel)]

/-- Behind a plus sign at the end, modifiers in another order make another token. -/
theorem normalize_chord_plus_ne :
    (∀ m ∈ ["ctrl", "alt"], IsModifier m) ∧ (∀ m ∈ ["ALT", "CTRL"], IsModifier m) ∧ IsKey "+" ∧
      SameModifiers ["ctrl", "alt"] ["ALT", "CTRL"] ∧
      normalize (chord ["ctrl", "alt"] "+") ≠ normalize (chord ["ALT", "CTRL"] "+") := by
  decide +kernel

end Chords

end Token

end LinkerScriptEditor
