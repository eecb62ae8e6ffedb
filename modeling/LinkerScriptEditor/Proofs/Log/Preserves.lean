import LinkerScriptEditor.Proofs.Log.Effect

/-!
# Preserved properties

A step preserves a property of states if the property holds afterwards whenever it held before,
whatever comes of the step.
-/

namespace LinkerScriptEditor.Traced

variable {σ α β : Type} {holds : σ → Prop}

def Preserves (holds : σ → Prop) (x : Traced σ α) : Prop := ∀ s, holds s → holds (effect x s).2

/-- A step that never changes the state preserves everything. -/
theorem preserves_of_still {x : Traced σ α} (still : ∀ s, (effect x s).2 = s) :
    Preserves holds x := by
  intro s before
  rw [still]
  exact before

/-- The rest only has to go on from values that the first step can come to. -/
theorem Preserves.bind_of {x : Traced σ α} {f : α → Traced σ β} {wanted : α → Prop}
    (first : Preserves holds x)
    (wants : ∀ s, holds s → ∀ a, (effect x s).1 = .ok a → wanted a)
    (rest : ∀ a, wanted a → Preserves holds (f a)) : Preserves holds (x >>= f) := by
  intro s before
  have middle := first s before
  have want := wants s before
  rw [effect_bind]
  rcases run : effect x s with ⟨fault | a, next⟩
  · rw [run] at middle
    exact middle
  · rw [run] at middle want
    exact rest a (want a rfl) next middle

theorem Preserves.bind {x : Traced σ α} {f : α → Traced σ β} (first : Preserves holds x)
    (rest : ∀ a, Preserves holds (f a)) : Preserves holds (x >>= f) :=
  first.bind_of (fun _ _ _ _ => trivial) fun a _ => rest a

/-- What is read has the property. -/
theorem preserves_get_bind {f : σ → Traced σ α} (rest : ∀ s, holds s → Preserves holds (f s)) :
    Preserves holds (get >>= f) := by
  refine Preserves.bind_of (preserves_of_still fun _ => rfl) ?_ rest
  rintro s before _ ⟨⟩
  exact before

theorem preserves_pure (a : α) : Preserves holds (Pure.pure a : Traced σ α) :=
  preserves_of_still fun _ => rfl

theorem Preserves.discarded {x : Traced σ α} (preserves : Preserves holds x) :
    Preserves holds (discard x) :=
  preserves.bind fun _ => preserves_pure ()

end LinkerScriptEditor.Traced
