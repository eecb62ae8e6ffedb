import LinkerScriptEditor.Log.Traced

/-!
# Effects of traced steps

The effect of a step is its outcome and the state it leaves, without what it wrote to the log.
Spans and events have no part in it, so the effect of a step can be computed from the effects of
its parts. Two steps with the same effect may still write different logs.
-/

namespace LinkerScriptEditor.Traced

variable {σ τ α β : Type}

/-- What a step comes to, and the state it leaves. -/
def effect (x : Traced σ α) (s : σ) : Except Fault α × σ := ((x s).outcome, (x s).state)

theorem error_ne_ok {fault : Fault} {a : α} : (.error fault : Except Fault α) ≠ .ok a := nofun

theorem outcome_eq (x : Traced σ α) (s : σ) : (x s).outcome = (x.effect s).1 := rfl

theorem state_eq (x : Traced σ α) (s : σ) : (x s).state = (x.effect s).2 := rfl

@[simp] theorem effect_pure (a : α) (s : σ) :
    effect (Pure.pure a : Traced σ α) s = (.ok a, s) := rfl

/-- A step goes on where the one before it ended, unless that one failed. -/
theorem effect_bind (x : Traced σ α) (f : α → Traced σ β) (s : σ) :
    effect (x >>= f) s = match effect x s with
      | (.ok a, next) => effect (f a) next
      | (.error fault, next) => (.error fault, next) := by
  change effect (Traced.bind x f) s = _
  cases h : (x s).outcome <;> simp only [effect, Traced.bind, h]

theorem effect_bind_of_ok {x : Traced σ α} {s next : σ} {a : α}
    (h : effect x s = (.ok a, next)) (f : α → Traced σ β) :
    effect (x >>= f) s = effect (f a) next := by
  rw [effect_bind, h]

theorem effect_bind_of_error {x : Traced σ α} {s next : σ} {fault : Fault}
    (h : effect x s = (.error fault, next)) (f : α → Traced σ β) :
    effect (x >>= f) s = (.error fault, next) := by
  rw [effect_bind, h]

theorem effect_map (f : α → β) (x : Traced σ α) (s : σ) :
    effect (f <$> x) s = ((effect x s).1.map f, (effect x s).2) := by
  change effect (x >>= fun a => Pure.pure (f a)) s = _
  rw [effect_bind]
  rcases effect x s with ⟨_ | _, next⟩ <;> rfl

theorem effect_discard (x : Traced σ α) (s : σ) :
    effect (discard x) s = ((effect x s).1.map fun _ => (), (effect x s).2) :=
  effect_map (fun _ => ()) x s

@[simp] theorem effect_get (s : σ) : effect (get : Traced σ σ) s = (.ok s, s) := rfl

@[simp] theorem effect_set (next s : σ) :
    effect (set next : Traced σ PUnit) s = (.ok (), next) := rfl

@[simp] theorem effect_modify (f : σ → σ) (s : σ) :
    effect (modify f : Traced σ PUnit) s = (.ok (), f s) := rfl

@[simp] theorem effect_fail (fault : Fault) (s : σ) :
    effect (fail fault : Traced σ α) s = (.error fault, s) := rfl

@[simp] theorem effect_ofExcept (e : Except Fault α) (s : σ) :
    effect (ofExcept e) s = (e, s) := rfl

@[simp] theorem effect_liftM (e : Except Fault α) (s : σ) :
    effect (liftM e : Traced σ α) s = (e, s) := rfl

@[simp] theorem effect_event (level : LogLevel) (name : String) (data : OrderedMap String Datum)
    (s : σ) : effect (event level name data) s = (.ok (), s) := rfl

theorem effect_zoom (l : Lens σ τ) (x : Traced τ α) (s : σ) :
    effect (zoom l x) s = ((effect x (l.get s)).1, l.set (effect x (l.get s)).2 s) := rfl

/-- A span has the effect of the work inside it. -/
theorem effect_span (h : SpanHandle) (work : Traced (σ × SpanHandle) α) (s : σ) :
    effect (span h work) s = ((effect work (s, h)).1, (effect work (s, h)).2.1) := rfl

theorem effect_zoom_workState {x : Traced σ α} {s next : σ} {outcome : Except Fault α}
    (run : effect x s = (outcome, next)) (h : SpanHandle) :
    effect (zoom workState x) (s, h) = (outcome, next, h) := by
  change ((effect x s).1, (effect x s).2, h) = _
  rw [run]

@[simp] theorem effect_within (h : SpanHandle) (work : Traced σ α) (s : σ) :
    effect (within h work) s = effect work s := rfl

@[simp] theorem effect_annotate (key : String) (value : Datum) (s : σ × SpanHandle) :
    effect (annotate key value) s = (.ok (), (s.1, s.2.annotate key value)) := rfl

end LinkerScriptEditor.Traced
