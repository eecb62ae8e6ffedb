import LinkerScriptEditor.Proofs.Log.Nesting

/-!
# Orderly steps

A step is orderly if all that it writes is nested, whether it goes well or fails, and if it leads
from good states to good states. Steps that are put together from orderly ones are orderly, so one
look at each part of a program is enough.
-/

namespace LinkerScriptEditor

variable {σ τ α β : Type}

/-- What was written is nested, and ends as the step did: if it failed, with the same fault. -/
def Trace.Nested (t : Trace σ α) : Prop :=
  match t.outcome with
  | .ok _ => Nests .done t.log
  | .error fault => ∃ crossed, Nests (.left fault crossed) t.log

theorem Trace.nested_of_empty {t : Trace σ α} (empty : t.log = []) : t.Nested := by
  rw [Trace.Nested, empty]
  split
  · exact .done
  · exact ⟨[], .fault _⟩

/-- What was written is nested, the state is good, and so is the value, if there is one. -/
structure Trace.Orderly (good : σ → Prop) (t : Trace σ α) (wanted : α → Prop) : Prop where
  nested : t.Nested
  good : good t.state
  wanted : ∀ a, t.outcome = .ok a → wanted a

namespace Traced

/-- From good states, a step makes nested entries, and leads to good states and wanted values. -/
def Orderly (good : σ → Prop) (x : Traced σ α) (wanted : α → Prop) : Prop :=
  ∀ s, good s → (x s).Orderly good wanted

/-- Whatever the state, a step makes nested entries. -/
structure SpansNest (x : Traced σ α) : Prop where
  nested : ∀ s, (x s).Nested

variable {good : σ → Prop} {wanted : α → Prop}

theorem SpansNest.orderly {x : Traced σ α} (nest : SpansNest x) :
    Orderly (fun _ => True) x fun _ => True :=
  fun s _ => ⟨nest.nested s, trivial, fun _ _ => trivial⟩

theorem Orderly.spansNest {x : Traced σ α} (orderly : Orderly (fun _ => True) x wanted) :
    SpansNest x := ⟨fun s => (orderly s trivial).nested⟩

theorem spansNest_of_silent {x : Traced σ α} (silent : ∀ s, (x s).log = []) : SpansNest x :=
  ⟨fun s => Trace.nested_of_empty (silent s)⟩

namespace Orderly

theorem imp {x : Traced σ α} {other : α → Prop} (orderly : Orderly good x wanted)
    (imp : ∀ a, wanted a → other a) : Orderly good x other :=
  fun s before => ⟨(orderly s before).nested, (orderly s before).good,
    fun a done => imp a ((orderly s before).wanted a done)⟩

theorem of_pure {a : α} (want : wanted a) : Orderly good (pure a : Traced σ α) wanted := by
  intro s before
  refine ⟨Trace.nested_of_empty rfl, before, ?_⟩
  rintro _ ⟨⟩
  exact want

theorem of_get : Orderly good (get : Traced σ σ) good := by
  intro s before
  refine ⟨Trace.nested_of_empty rfl, before, ?_⟩
  rintro _ ⟨⟩
  exact before

theorem of_set {next : σ} (after : good next) :
    Orderly good (set next : Traced σ PUnit) fun _ => True :=
  fun _ _ => ⟨Trace.nested_of_empty rfl, after, fun _ _ => trivial⟩

theorem of_modify {f : σ → σ} (keeps : ∀ s, good s → good (f s)) :
    Orderly good (modify f : Traced σ PUnit) fun _ => True :=
  fun s before => ⟨Trace.nested_of_empty rfl, keeps s before, fun _ _ => trivial⟩

theorem of_ofExcept {e : Except Fault α} (want : ∀ a, e = .ok a → wanted a) :
    Orderly good (ofExcept e) wanted :=
  fun _ before => ⟨Trace.nested_of_empty rfl, before, want⟩

theorem of_fail (fault : Fault) : Orderly good (fail fault : Traced σ α) wanted :=
  fun _ before => ⟨Trace.nested_of_empty rfl, before, nofun⟩

theorem of_write {e : LogEntry} (plain : e.IsPlain) :
    Orderly good (write e) fun _ => True :=
  fun _ before => ⟨.plain plain .done, before, fun _ _ => trivial⟩

theorem bind {x : Traced σ α} {f : α → Traced σ β} {between : α → Prop} {wanted : β → Prop}
    (first : Orderly good x between) (rest : ∀ a, between a → Orderly good (f a) wanted) :
    Orderly good (x >>= f) wanted := by
  intro s before
  obtain ⟨nested, middle, between⟩ := first s before
  rw [Trace.Nested] at nested
  change (Traced.bind x f s).Orderly good wanted
  cases done : (x s).outcome with
  | error fault =>
      rw [done] at nested
      simp only [Traced.bind, done]
      exact ⟨nested, middle, nofun⟩
  | ok a =>
      rw [done] at nested
      obtain ⟨more, after, want⟩ := rest a (between a done) (x s).state middle
      simp only [Traced.bind, done]
      refine ⟨?_, after, want⟩
      rw [Trace.Nested] at more ⊢
      cases ended : (f a (x s).state).outcome with
      | error fault =>
          rw [ended] at more
          obtain ⟨crossed, more⟩ := more
          exact ⟨crossed, nested.append more⟩
      | ok b =>
          rw [ended] at more
          exact nested.append more

/-- What comes after a failure never begins. -/
theorem fail_bind (fault : Fault) {f : α → Traced σ β} {wanted : β → Prop} :
    Orderly good (Traced.fail fault >>= f) wanted := by
  have never : Orderly good (Traced.fail fault : Traced σ α) fun _ => False := of_fail fault
  exact never.bind fun _ reached => reached.elim

theorem map {x : Traced σ α} {wanted : β → Prop} {f : α → β}
    (orderly : Orderly good x fun a => wanted (f a)) : Orderly good (f <$> x) wanted :=
  orderly.bind fun _ want => of_pure want

theorem discarded {x : Traced σ α} (orderly : Orderly good x wanted) :
    Orderly good (discard x) fun _ => True :=
  map (orderly.imp fun _ _ => trivial)

/-- A step on a part of a state. -/
theorem zoom {l : Lens σ τ} {x : Traced τ α} {goodPart : τ → Prop}
    (orderly : Orderly goodPart x wanted) (get : ∀ s, good s → goodPart (l.get s))
    (set : ∀ s part, good s → goodPart part → good (l.set part s)) :
    Orderly good (Traced.zoom l x) wanted := by
  intro s before
  obtain ⟨nested, after, want⟩ := orderly (l.get s) (get s before)
  exact ⟨nested, set s _ before after, want⟩

/-- Work inside a span may add notes to it. -/
theorem span {h : SpanHandle} {work : Traced (σ × SpanHandle) α}
    (orderly : Orderly (fun pair => good pair.1 ∧ h.Same pair.2) work wanted) :
    Orderly good (Traced.span h work) wanted := by
  intro s before
  obtain ⟨nested, ⟨after, same⟩, want⟩ := orderly (s, h) ⟨before, .refl h⟩
  refine ⟨?_, after, want⟩
  rw [Trace.Nested] at nested ⊢
  simp only [Traced.span]
  cases done : (work (s, h)).outcome with
  | error fault =>
      rw [done] at nested
      obtain ⟨crossed, nested⟩ := nested
      exact ⟨_, .crossed same nested⟩
  | ok a =>
      rw [done] at nested
      simpa using Nests.span h nested .done

theorem inside {h : SpanHandle} {work : Traced σ α} (orderly : Orderly good work wanted) :
    Orderly (fun pair => good pair.1 ∧ h.Same pair.2) (Traced.zoom workState work) wanted :=
  orderly.zoom (fun _ before => before.1) fun _ _ before after => ⟨after, before.2⟩

theorem within {h : SpanHandle} {work : Traced σ α} (orderly : Orderly good work wanted) :
    Orderly good (Traced.within h work) wanted := span (inside orderly)

theorem annotate (good : σ → Prop) {h : SpanHandle} (key : String) (value : Datum) :
    Orderly (fun pair : σ × SpanHandle => good pair.1 ∧ h.Same pair.2)
      (Traced.annotate key value) fun _ => True :=
  of_modify fun _ before => ⟨before.1, before.2.annotate key value⟩

/-- A loop of orderly steps. -/
theorem of_forIn {items : List β} {body : β → PUnit → Traced σ (ForInStep PUnit)}
    (each : ∀ b ∈ items, Orderly good (body b PUnit.unit) fun _ => True) :
    Orderly good (forIn items PUnit.unit body) fun _ => True := by
  induction items with
  | nil => exact of_pure trivial
  | cons b rest ih =>
      rw [List.forIn_cons]
      refine (each b (List.mem_cons_self ..)).bind fun step _ => ?_
      cases step with
      | done => exact of_pure trivial
      | yield => exact ih fun b mem => each b (List.mem_cons_of_mem _ mem)

end Orderly

namespace SpansNest

theorem bind {x : Traced σ α} {f : α → Traced σ β} (first : SpansNest x)
    (rest : ∀ a, SpansNest (f a)) : SpansNest (x >>= f) :=
  (first.orderly.bind fun a _ => (rest a).orderly).spansNest

/-- After a step that writes nothing, only the rest counts. -/
theorem silently {x : Traced σ α} {f : α → Traced σ β} (silent : ∀ s, (x s).log = [])
    (rest : ∀ a, SpansNest (f a)) : SpansNest (x >>= f) := (spansNest_of_silent silent).bind rest

theorem map {x : Traced σ α} {f : α → β} (nest : SpansNest x) : SpansNest (f <$> x) :=
  nest.bind fun _ => spansNest_of_silent fun _ => rfl

theorem discarded {x : Traced σ α} (nest : SpansNest x) : SpansNest (discard x) := nest.map

theorem zoom {l : Lens σ τ} {x : Traced τ α} (nest : SpansNest x) :
    SpansNest (Traced.zoom l x) := ⟨fun s => nest.nested (l.get s)⟩

theorem span {h : SpanHandle} {work : Traced (σ × SpanHandle) α}
    (orderly : Orderly (fun pair => True ∧ h.Same pair.2) work fun _ => True) :
    SpansNest (Traced.span h work) := (Orderly.span orderly).spansNest

theorem within {h : SpanHandle} {work : Traced σ α} (nest : SpansNest work) :
    SpansNest (Traced.within h work) := nest.orderly.within.spansNest

end SpansNest

end Traced

end LinkerScriptEditor
