import Mathlib.Data.List.Nodup
import LinkerScriptEditor.OrderedMap

/-!
# Distinct keys

As long as the keys of a map are distinct, its entries are just what it answers. Putting and
erasing keep them distinct, and putting a new key leaves the other entries in front of it.
-/

namespace LinkerScriptEditor.OrderedMap

variable {κ ν : Type} [DecidableEq κ] {key : κ} {value : ν} {m : OrderedMap κ ν}

theorem mem_of_get? (found : get? key m = some value) : (key, value) ∈ m := by
  induction m with
  | nil => cases found
  | cons entry rest ih =>
      obtain ⟨k, v⟩ := entry
      rw [get?] at found
      split at found
      · next same =>
          cases found
          rw [same]
          exact List.mem_cons_self
      · exact List.mem_cons_of_mem _ (ih found)

theorem get?_of_mem (nodup : (keys m).Nodup) (mem : (key, value) ∈ m) :
    get? key m = some value := by
  induction m with
  | nil => cases mem
  | cons entry rest ih =>
      obtain ⟨k, v⟩ := entry
      obtain ⟨fresh, distinct⟩ := List.nodup_cons.mp nodup
      rw [get?]
      rcases List.mem_cons.mp mem with same | later
      · cases same
        rw [if_pos rfl]
      · have ne : k ≠ key := by
          rintro rfl
          exact fresh (List.mem_map.mpr ⟨(k, value), later, rfl⟩)
        rw [if_neg ne, ih distinct later]

theorem get?_eq_none_iff : get? key m = none ↔ key ∉ keys m := by
  induction m with
  | nil => simp [get?, keys]
  | cons entry rest ih =>
      obtain ⟨k, v⟩ := entry
      rw [get?]
      split
      · next same => simp [keys, same]
      · next ne => simpa [keys, Ne.symm ne] using ih

theorem mem_iff_get? (nodup : (keys m).Nodup) : (key, value) ∈ m ↔ get? key m = some value :=
  ⟨get?_of_mem nodup, mem_of_get?⟩

theorem mem_put {entry : κ × ν} (mem : entry ∈ put key value m) :
    entry = (key, value) ∨ entry ∈ m := by
  induction m with
  | nil => exact .inl (List.mem_singleton.mp mem)
  | cons first rest ih =>
      obtain ⟨k, v⟩ := first
      rw [put] at mem
      split at mem
      · exact (List.mem_cons.mp mem).imp_right (List.mem_cons_of_mem (k, v))
      · rcases List.mem_cons.mp mem with same | later
        · exact .inr (same ▸ List.mem_cons_self)
        · exact (ih later).imp_right (List.mem_cons_of_mem (k, v))

theorem mem_keys_put {other : κ} (mem : other ∈ keys (put key value m)) :
    other = key ∨ other ∈ keys m := by
  obtain ⟨entry, found, rfl⟩ := List.mem_map.mp mem
  rcases mem_put found with rfl | before
  · exact .inl rfl
  · exact .inr (List.mem_map.mpr ⟨entry, before, rfl⟩)

theorem nodup_keys_put (nodup : (keys m).Nodup) : (keys (put key value m)).Nodup := by
  induction m with
  | nil => exact List.nodup_singleton key
  | cons entry rest ih =>
      obtain ⟨k, v⟩ := entry
      obtain ⟨fresh, distinct⟩ := List.nodup_cons.mp nodup
      rw [put]
      split
      · next same => exact same ▸ nodup
      · next ne =>
          refine List.nodup_cons.mpr ⟨fun mem => ?_, ih distinct⟩
          exact (mem_keys_put mem).elim ne fresh

theorem keys_put_of_mem (mem : key ∈ keys m) : keys (put key value m) = keys m := by
  induction m with
  | nil => cases mem
  | cons entry rest ih =>
      obtain ⟨k, v⟩ := entry
      rw [put]
      split
      · next same => exact congrArg (· :: keys rest) same.symm
      · next ne => exact congrArg (k :: ·) (ih ((List.mem_cons.mp mem).resolve_left (Ne.symm ne)))

/-- A new key goes last. -/
theorem put_of_get?_eq_none (absent : get? key m = none) :
    put key value m = m ++ [(key, value)] := by
  induction m with
  | nil => rfl
  | cons entry rest ih =>
      obtain ⟨k, v⟩ := entry
      rw [get?] at absent
      split at absent
      · cases absent
      · next ne => rw [put, if_neg ne, ih absent, List.cons_append]

/-- Putting a value where it is changes nothing. -/
theorem put_of_get? (found : get? key m = some value) : put key value m = m := by
  induction m with
  | nil => cases found
  | cons entry rest ih =>
      obtain ⟨k, v⟩ := entry
      rw [get?] at found
      split at found
      · next same =>
          cases found
          rw [put, if_pos same, same]
      · next ne => rw [put, if_neg ne, ih found]

/-- Only the last value put under a key counts. -/
theorem put_put (first : ν) : put key value (put key first m) = put key value m := by
  induction m with
  | nil => simp [put]
  | cons entry rest ih =>
      obtain ⟨k, v⟩ := entry
      by_cases same : k = key
      · simp [put, same]
      · simp [put, same, ih]

theorem erase_eq_filter (key : κ) (m : OrderedMap κ ν) :
    erase key m = m.filter fun entry => entry.1 ≠ key := by
  induction m with
  | nil => rfl
  | cons entry rest ih =>
      obtain ⟨k, v⟩ := entry
      rw [erase, ih, List.filter_cons]
      by_cases same : k = key
      · rw [if_pos same, if_neg (by simpa using same)]
      · rw [if_neg same, if_pos (by simpa using same)]

theorem nodup_keys_erase (nodup : (keys m).Nodup) : (keys (erase key m)).Nodup := by
  rw [erase_eq_filter]
  exact nodup.sublist (List.filter_sublist.map Prod.fst)

/-- Maps with the same keys in the same order are equal if they answer the same. -/
theorem eq_of_getD {other : OrderedMap κ ν} (nodup : (keys m).Nodup)
    (same : keys m = keys other) (default : ν)
    (answers : ∀ key, (get? key m).getD default = (get? key other).getD default) : m = other := by
  induction m generalizing other with
  | nil => exact (List.map_eq_nil_iff.mp same.symm).symm
  | cons entry rest ih =>
      obtain ⟨k, v⟩ := entry
      obtain ⟨⟨name, w⟩, others, rfl, own, more⟩ := List.map_eq_cons_iff.mp same.symm
      obtain rfl : k = name := own.symm
      obtain ⟨fresh, distinct⟩ := List.nodup_cons.mp nodup
      have first := answers k
      simp only [get?, if_true, Option.getD_some] at first
      subst first
      have later : rest = others := by
        apply ih distinct more.symm
        intro key
        by_cases here : k = key
        · subst here
          have absent : k ∉ keys others := fun mem => fresh (more ▸ mem)
          rw [get?_eq_none_iff.mpr fresh, get?_eq_none_iff.mpr absent]
        · simpa only [get?, if_neg here] using answers key
      rw [later]

end LinkerScriptEditor.OrderedMap
