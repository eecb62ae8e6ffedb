import LinkerScriptEditor.Proofs.Log.Effect

/-!
# Steps on a part of a state

A lens that reads back what it wrote and overwrites what it wrote before carries whole runs: steps
on the part one by one come to the same as one step on the part that takes them all.
-/

namespace LinkerScriptEditor

variable {σ τ α β : Type}

/-- What is written to the part is read from it, and only the last write counts. -/
structure Lens.Lawful (l : Lens σ τ) : Prop where
  get_set : ∀ part s, l.get (l.set part s) = part
  set_set : ∀ part next s, l.set next (l.set part s) = l.set next s
  set_get : ∀ s, l.set (l.get s) s = s

namespace Traced

variable {l : Lens σ τ}

theorem effect_zoom_pure (lawful : l.Lawful) (a : α) (s : σ) :
    effect (zoom l (Pure.pure a)) s = (.ok a, s) := by
  rw [effect_zoom, effect_pure, lawful.set_get]

/-- A loop does the step of its first item and goes on with the others. -/
theorem effect_forIn_cons (a : α) (rest : List α) (f : α → Traced σ PUnit) (s : σ) :
    effect (forIn (a :: rest) PUnit.unit fun a _ => do
        f a
        Pure.pure (ForInStep.yield PUnit.unit)) s =
      effect (do
        f a
        forIn rest PUnit.unit fun a _ => do
          f a
          Pure.pure (ForInStep.yield PUnit.unit)) s := by
  rw [List.forIn_cons, effect_bind, effect_bind, effect_bind]
  rcases effect (f a) s with ⟨_ | _, next⟩ <;> rfl

/-- A loop of steps on a part is a step on the part. -/
theorem effect_forIn_zoom (lawful : l.Lawful) (items : List α) (f : α → Traced τ PUnit) (s : σ) :
    effect (forIn items PUnit.unit fun a _ => do
        zoom l (f a)
        Pure.pure (ForInStep.yield PUnit.unit)) s =
      effect (zoom l (forIn items PUnit.unit fun a _ => do
        f a
        Pure.pure (ForInStep.yield PUnit.unit))) s := by
  induction items generalizing s with
  | nil => exact (effect_zoom_pure lawful PUnit.unit s).symm
  | cons a rest ih =>
      rw [effect_forIn_cons, effect_zoom, effect_forIn_cons, effect_bind, effect_bind, effect_zoom]
      rcases effect (f a) (l.get s) with ⟨_ | _, part⟩
      · rfl
      · change effect _ (l.set part s) = _
        rw [ih, effect_zoom, lawful.get_set, lawful.set_set]

end Traced

end LinkerScriptEditor
