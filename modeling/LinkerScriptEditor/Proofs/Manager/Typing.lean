import Mathlib.Data.List.Induction
import LinkerScriptEditor.Proofs.Key.Canonical
import LinkerScriptEditor.Proofs.Keymap.Calls
import LinkerScriptEditor.Proofs.Manager.Activation
import LinkerScriptEditor.Proofs.Manager.Switching

/-!
# Typing a binding

Whatever else is bound, a binding of the linker script mode can be typed unless a shorter binding of
the mode is a beginning of it. All keys but the last one wait and change nothing else, the last one
runs the action, and no keys are pending afterwards, even if the action is refused. The modifiers of
a key may be held in any order, more than once and in any case.
-/

namespace LinkerScriptEditor

open Traced

/-- A key press as its modifiers are held, not in normal form. -/
def KeyPress.chord (key : KeyPress) : String := Token.chord key.modifiers key.key

theorem KeyPress.normalize_token (key : KeyPress) :
    Token.normalize key.token = Token.normalize key.chord := by
  rw [token]
  split
  · next none =>
      have alone : key.chord = key.key := by
        rw [chord, Token.chord, List.isEmpty_iff.mp none, List.nil_append]
        rfl
      rw [alone]
  · exact Token.normalize_idempotent _

/-- No keys are pending in the linker script mode. -/
def Workspace.AtRest (w : Workspace) : Prop :=
  ∀ state, OrderedMap.get? LinkerScriptMode.name w.modes = some state → state.pending = []

theorem Workspace.outlasts_atRest : Workspace.Outlasts Workspace.AtRest where
  modes := by
    intro w name state idle rest other found
    change OrderedMap.get? _ (OrderedMap.put _ _ _) = _ at found
    rw [OrderedMap.get?_put] at found
    split at found
    · cases found
      exact idle
    · exact rest other found
  services := fun _ rest => rest
  active := fun _ rest => rest
  emitted := by
    intro w event payload rest
    obtain ⟨notices, same⟩ := emitted_eq event payload w
    rw [same]
    exact rest

namespace Manager

variable {m : Manager} {key : KeyPress} {b : Binding}

/-- Runs an action and goes to the mode that its result asks for. -/
def carryOut (a : Action Handler) : Traced Manager KeyResult := do
  let result ← Outcome.toResult <$> onWorkspace a.handler
  if let some next := result.switchTo.filter (· != "") then
    discard (activate next)
  return result

theorem effect_carryOut (a : Action Handler) (m : Manager) :
    effect (carryOut a) m = match effect (Outcome.toResult <$> onWorkspace a.handler) m with
      | (.error fault, after) => (.error fault, after)
      | (.ok result, after) => match result.switchTo.filter (· != "") with
        | none => (.ok result, after)
        | some next => let switched := effect (activate next) after
          (switched.1.map fun _ => result, switched.2) := by
  rw [carryOut, effect_bind]
  rcases effect (Outcome.toResult <$> onWorkspace a.handler) m with ⟨fault | result, after⟩
  · rfl
  · dsimp only
    cases result.switchTo.filter (· != "") with
    | none => rfl
    | some next =>
        dsimp only
        rw [effect_bind, effect_discard]
        rcases effect (activate next) after with ⟨_ | _, last⟩ <;> rfl

theorem switches_carryOut {holds : Workspace → Prop} (outlasts : Workspace.Outlasts holds)
    (hooks : ∀ entry ∈ m.descriptors, entry.2.behaviour.Keeps holds) {a : Action Handler}
    (quiet : Preserves holds a.handler) : Preserves (Switches holds m) (carryOut a) := by
  have runs : Preserves (Switches holds m) (onWorkspace a.handler) := switches_onWorkspace quiet
  refine Preserves.bind (Preserves.bind runs fun _ => preserves_pure _) fun result => ?_
  split
  · exact (switches_activate outlasts hooks _).discarded.bind fun _ => preserves_pure _
  · exact preserves_pure _

/-- What a key comes to, given what the keymap makes of it together with the pending keys. -/
def answered (key : KeyPress) (m : Manager) :
    Resolution Handler → Except Fault KeyResult × Manager
  | .found _ a _ => effect (carryOut a) (m.pend [])
  | .pending _ => (.ok (.saying "pending" "awaiting_sequence"), m.pend (m.keysWith key))
  | .miss =>
    if key.isPrintable then
      let typed := effect (Buffer.insertText (key.text.getD "").toList none) m.workspace.buffer
      (typed.1.map fun _ => .plain "insert",
        { m with workspace := { (m.pend []).workspace with buffer := typed.2 } })
    else (.ok .unbound, m.pend [])

section Pressing

variable (inMode : m.InMode)
include inMode

theorem press_of_resolution {answer : Resolution Handler}
    (resolved : effect (Keymap.resolve LinkerScriptMode.name (m.keysWith key)) m.keymap =
      (.ok answer, m.keymap)) : effect (press key) m = answered key m answer := by
  obtain ⟨pending, mode⟩ := inMode.activeMode
  have keys : m.keysWith key = pending ++ [key.token] := by
    rw [keysWith, mode]
    rfl
  have looked : effect (onKeymap (Keymap.resolve LinkerScriptMode.name (m.keysWith key)))
      (m.pend (m.keysWith key)) = (.ok answer, m.pend (m.keysWith key)) :=
    effect_onKeymap resolved
  have cleared := (inMode.pend (m.keysWith key)).effect_setPending []
  rw [pend_pend] at cleared
  have opened : effect (press key) m = _ := effect_press inMode.active mode key
  rw [inMode.behaviour, pressLinkerScript] at opened
  dsimp only at opened
  rw [← keys, effect_bind_of_ok (inMode.effect_setPending _), effect_bind_of_ok looked] at opened
  rw [opened]
  cases answer with
  | found b a used =>
      have ran : effect (execute b a) (m.pend []) =
          effect (Outcome.toResult <$> onWorkspace a.handler) (m.pend []) := by
        rw [effect_execute, effect_map, effect_onWorkspace rfl]
        rfl
      dsimp only
      rw [effect_bind_of_ok cleared, ran]
      exact (effect_carryOut a (m.pend [])).symm
  | pending used => rfl
  | miss =>
      dsimp only
      rw [effect_bind_of_ok cleared, answered]
      by_cases printable : key.isPrintable = true
      · rcases run : effect (Buffer.insertText (key.text.getD "").toList none)
          m.workspace.buffer with ⟨outcome, b⟩
        rw [if_pos printable, if_pos printable, effect_type (m := m.pend []) run]
        cases outcome with
        | error fault => rfl
        | ok delta => rfl
      · rw [if_neg printable, if_neg printable]
        rfl

variable (coherent : m.keymap.Coherent)
include coherent

/-- A key waits if no binding is complete but one goes on. -/
theorem press_of_prefix (mem : b ∈ m.keymap.bindingsOf (some LinkerScriptMode.name))
    (start : (m.keysWith key).map Token.normalize <+: b.sequence.tokens)
    (free : ∀ other ∈ m.keymap.bindingsOf (some LinkerScriptMode.name),
      other.sequence.tokens ≠ (m.keysWith key).map Token.normalize) :
    effect (press key) m =
      (.ok (.saying "pending" "awaiting_sequence"), m.pend (m.keysWith key)) := by
  obtain ⟨answer, resolved, answers⟩ :=
    coherent.exists_resolution LinkerScriptMode.name (m.keysWith key)
  obtain ⟨used, rfl⟩ := answers.pending.mpr
    ⟨fun ⟨other, listed, same⟩ => free other listed same, b, mem, start, free b mem⟩
  exact press_of_resolution inMode resolved

/-- A key that completes a binding makes its action run. -/
theorem press_of_sequence (mem : b ∈ m.keymap.bindingsOf (some LinkerScriptMode.name))
    (complete : (m.keysWith key).map Token.normalize = b.sequence.tokens) :
    ∃ a, m.keymap.action b.action = .ok a ∧
      effect (press key) m = effect (carryOut a) (m.pend []) := by
  obtain ⟨answer, resolved, answers⟩ :=
    coherent.exists_resolution LinkerScriptMode.name (m.keysWith key)
  obtain ⟨other, a, used, rfl⟩ := answers.found.mpr ⟨b, mem, complete.symm⟩
  obtain ⟨listed, same, action, -⟩ := answers.own other a used rfl
  rw [complete] at same
  rw [coherent.eq_of_tokens mem listed same] at action
  exact ⟨a, action, press_of_resolution inMode resolved⟩

end Pressing

theorem InMode.keysWith_pend (inMode : m.InMode) (keys : List KeyPress) (key : KeyPress) :
    (m.pend (keys.map KeyPress.token)).keysWith key = (keys ++ [key]).map KeyPress.token := by
  rw [keysWith, inMode.activeMode?_pend, List.map_append]
  rfl

theorem normalize_tokens (keys : List KeyPress) :
    (keys.map KeyPress.token).map Token.normalize =
      keys.map fun key => Token.normalize key.chord := by
  simp only [List.map_map, Function.comp_def, KeyPress.normalize_token]

theorem InMode.pend_nil (inMode : m.InMode)
    (idle : m.workspace.activeMode? = some ⟨LinkerScriptMode.name, []⟩) : m.pend [] = m := by
  rw [Workspace.activeMode?, inMode.active] at idle
  rw [Manager.pend, Workspace.putMode, OrderedMap.put_of_get? idle]

section Typing

variable (inMode : m.InMode) (coherent : m.keymap.Coherent)
  (mem : b ∈ m.keymap.bindingsOf (some LinkerScriptMode.name))
  (unshadowed : ∀ other ∈ m.keymap.bindingsOf (some LinkerScriptMode.name),
    other.sequence.tokens ≠ [] → other.sequence.tokens <+: b.sequence.tokens →
      other.sequence.tokens = b.sequence.tokens)
include inMode coherent mem unshadowed

/-- While a binding is typed, a key only adds to the pending keys. -/
theorem press_while_typing {before rest : List KeyPress} (some : rest ≠ [])
    (spells : (before ++ key :: rest).map (fun key => Token.normalize key.chord) =
      b.sequence.tokens) :
    effect (press key) (m.pend (before.map KeyPress.token)) =
      (.ok (.saying "pending" "awaiting_sequence"),
        m.pend ((before ++ [key]).map KeyPress.token)) := by
  have split : ((before ++ [key]).map fun key => Token.normalize key.chord) ++
      rest.map (fun key => Token.normalize key.chord) = b.sequence.tokens := by
    rw [← spells, ← List.map_append, List.append_assoc, List.singleton_append]
  have typed := inMode.pend (before.map KeyPress.token)
  have tokens : ((m.pend (before.map KeyPress.token)).keysWith key).map Token.normalize =
      (before ++ [key]).map fun key => Token.normalize key.chord := by
    rw [inMode.keysWith_pend, normalize_tokens]
  have free : ∀ other ∈ m.keymap.bindingsOf (Option.some LinkerScriptMode.name),
      other.sequence.tokens ≠ (before ++ [key]).map fun key => Token.normalize key.chord := by
    intro other listed same
    have whole := unshadowed other listed (by simp [same]) ⟨_, same ▸ split⟩
    rw [same, ← split, List.self_eq_append_right, List.map_eq_nil_iff] at whole
    exact some whole
  have pressed := press_of_prefix typed coherent mem ⟨_, tokens ▸ split⟩ (tokens ▸ free)
  rwa [pend_pend, inMode.keysWith_pend] at pressed

variable (idle : m.workspace.activeMode? = some ⟨LinkerScriptMode.name, []⟩)
include idle

theorem after_typing {before rest : List KeyPress} (some : rest ≠ [])
    (spells : (before ++ rest).map (fun key => Token.normalize key.chord) = b.sequence.tokens) :
    m.after (before.map .press) = m.pend (before.map KeyPress.token) := by
  induction before using List.reverseRecOn generalizing rest with
  | nil => exact (inMode.pend_nil idle).symm
  | append_singleton before key ih =>
      rw [List.append_assoc, List.singleton_append] at spells
      have last : m.after ((before ++ [key]).map .press) =
          (effect (press key) (m.after (before.map .press))).2 := by
        rw [after, List.map_append, List.foldl_append]
        rfl
      rw [last, ih (List.cons_ne_nil _ _) spells,
        press_while_typing inMode coherent mem unshadowed some spells]

end Typing

/-- A binding with no shorter binding of the mode at its beginning is typed by its keys, however
their modifiers are held: all but the last wait and change nothing but the pending keys, and the
last runs the action. If the action makes no keys pending, none are pending when it has run or was
refused, and none after a switch to another mode, if entering and leaving the host's modes makes
none pending either. -/
theorem typing_runs_action {earlier : List KeyPress} {last : KeyPress} (inMode : m.InMode)
    (idle : m.workspace.activeMode? = some ⟨LinkerScriptMode.name, []⟩)
    (registry : ∃ logger calls, m.keymap = (Keymap.empty logger).after calls)
    (mem : b ∈ m.keymap.bindingsOf (some LinkerScriptMode.name))
    (unshadowed : ∀ other ∈ m.keymap.bindingsOf (some LinkerScriptMode.name),
      other.sequence.tokens ≠ [] → other.sequence.tokens <+: b.sequence.tokens →
        other.sequence.tokens = b.sequence.tokens)
    (spells : (earlier ++ [last]).map (fun key => Token.normalize key.chord) =
      b.sequence.tokens) :
    ∃ a, m.keymap.action b.action = .ok a ∧
      (∀ before key rest, earlier = before ++ key :: rest →
        effect (press key) (m.after (before.map .press)) =
            (.ok (.saying "pending" "awaiting_sequence"),
              m.pend ((before ++ [key]).map KeyPress.token)) ∧
          (effect (press key) (m.after (before.map .press))).2.workspace.buffer =
            m.workspace.buffer) ∧
      effect (press last) (m.after (earlier.map .press)) = effect (carryOut a) m ∧
      (Preserves Workspace.AtRest a.handler →
        (effect a.handler m.workspace).2.AtRest ∧
        ((∀ entry ∈ m.descriptors, entry.2.behaviour.Keeps Workspace.AtRest) →
          (effect (press last) (m.after (earlier.map .press))).2.workspace.AtRest)) := by
  obtain ⟨logger, calls, same⟩ := registry
  have coherent : m.keymap.Coherent := same ▸ (Keymap.coherent_empty logger).after calls
  have typed : m.after (earlier.map .press) = m.pend (earlier.map KeyPress.token) :=
    after_typing inMode coherent mem unshadowed idle (List.cons_ne_nil last []) spells
  have rests : m.workspace.AtRest := by
    intro state found
    rw [Workspace.activeMode?, inMode.active, Option.bind_some, found] at idle
    cases idle
    rfl
  have complete := spells
  rw [← normalize_tokens, ← inMode.keysWith_pend] at complete
  obtain ⟨a, action, runs⟩ :=
    press_of_sequence (inMode.pend (earlier.map KeyPress.token)) coherent mem complete
  rw [pend_pend, inMode.pend_nil idle, ← typed] at runs
  refine ⟨a, action, ?_, runs, fun quiet => ⟨quiet _ rests, fun hooks => ?_⟩⟩
  · rintro before key rest rfl
    rw [List.append_assoc, List.cons_append] at spells
    have waits := press_while_typing inMode coherent mem unshadowed (by simp) spells
    rw [after_typing inMode coherent mem unshadowed idle (by simp) spells, waits]
    exact ⟨rfl, rfl⟩
  · rw [runs]
    exact (switches_carryOut Workspace.outlasts_atRest hooks quiet m ⟨rests, rfl, rfl⟩).workspace

/-- The first key has its modifiers in disorder and one of them twice, another binding begins with
the same modifiers, and the action is refused. -/
theorem typing_runs_refused_action :
    let act : Action Handler := ⟨"act", fail .noActiveMode, none⟩
    let binding (id : String) (tokens : List String) : Binding :=
      ⟨id, LinkerScriptMode.name, ⟨tokens⟩, "act", none⟩
    let k := (Keymap.empty keymapLogger).after [.registerAction act false,
      .registerBinding (binding "long" ["ALT+CTRL+x", "TAB"]) false,
      .registerBinding (binding "other" ["ALT+CTRL+y"]) false]
    let m := { started (.ofText none none "a".toList) (.ofEnvironment []) with keymap := k }
    let first : KeyPress := ⟨"x", ["ctrl", " Alt", "ALT"], none⟩
    let last : KeyPress := ⟨"TAB", [], some "\t"⟩
    (m.InMode ∧ m.workspace.activeMode? = some ⟨LinkerScriptMode.name, []⟩ ∧
      binding "long" ["ALT+CTRL+x", "TAB"] ∈ k.bindingsOf (some LinkerScriptMode.name) ∧
      [first, last].map (fun key => Token.normalize key.chord) = ["ALT+CTRL+x", "TAB"]) ∧
    (effect (press first) m).1 = .ok (.saying "pending" "awaiting_sequence") ∧
      (effect (press last) (m.after [.press first])).1 = .error .noActiveMode ∧
      (effect (press last) (m.after [.press first])).2.workspace.AtRest := by
  intro act binding k m first last
  have inMode : m.InMode := ⟨rfl, ⟨[], rfl⟩, rfl⟩
  have idle : m.workspace.activeMode? = some ⟨LinkerScriptMode.name, []⟩ := rfl
  have listed : k.bindingsOf (some LinkerScriptMode.name) =
      [binding "long" ["ALT+CTRL+x", "TAB"], binding "other" ["ALT+CTRL+y"]] := by decide +kernel
  have mem : binding "long" ["ALT+CTRL+x", "TAB"] ∈ k.bindingsOf (some LinkerScriptMode.name) := by
    rw [listed]
    exact List.mem_cons_self
  have unshadowed : ∀ other ∈ k.bindingsOf (some LinkerScriptMode.name),
      other.sequence.tokens ≠ [] → other.sequence.tokens <+: ["ALT+CTRL+x", "TAB"] →
        other.sequence.tokens = ["ALT+CTRL+x", "TAB"] := by
    rw [listed]
    decide +kernel
  have sorted : Token.canonical (first.modifiers.map String.toList) =
      ["ALT".toList, "CTRL".toList] := by
    have same : Token.SameModifiers first.modifiers ["ALT", "CTRL"] := by decide +kernel
    have named : ∀ m ∈ first.modifiers, Token.IsModifier m := by decide +kernel
    have named' : ∀ m ∈ ["ALT", "CTRL"], Token.IsModifier m := by decide +kernel
    refine ((Token.canonical_toList_eq_iff named named').mpr same).trans ?_
    exact List.mergeSort_of_pairwise (by decide +kernel)
  have split : splitOn '+' first.chord.toList =
      first.modifiers.map String.toList ++ [['x']] := by decide +kernel
  have spells : [first, last].map (fun key => Token.normalize key.chord) =
      ["ALT+CTRL+x", "TAB"] := by
    have chord : Token.normalize first.chord = "ALT+CTRL+x" := by
      rw [Token.normalize_of_split split, if_neg (by decide), sorted]
      rfl
    have plain : Token.normalize last.chord = "TAB" := by decide +kernel
    rw [List.map_cons, List.map_singleton, chord, plain]
  obtain ⟨a, action, waits, runs, rests⟩ :=
    @typing_runs_action m _ [first] last inMode idle ⟨_, _, rfl⟩ mem unshadowed spells
  cases (show k.action "act" = .ok act from rfl).symm.trans action
  rw [List.map_singleton] at runs rests
  refine ⟨⟨inMode, idle, mem, spells⟩, ?_, ?_, ?_⟩
  · exact congrArg Prod.fst (waits [] first [] rfl).1
  · rw [runs]
    rfl
  · refine (rests fun _ rest => rest).2 ?_
    intro entry only
    rw [List.mem_singleton.mp only]
    trivial

end Manager

end LinkerScriptEditor
